import Keeper.Foundations.Fallible
import Mathlib.Data.List.Nodup
import Mathlib.Data.List.Pairwise

/-!
# Tables with unique indexes

A table is a list of entries, each with an id of its own. A partial unique index gives some rows a
key that no other row may have; the indexes of a table cover disjoint sets of rows, so that a row has
at most one key. `INSERT ... ON CONFLICT (target) DO UPDATE` writes a row over the one with its key
in the target index, or adds it.

* `upsertRow_ok`: one row.
* `upsertRows_ok`: a statement whose rows have distinct keys in its target succeeds and writes them.
* `Upserted.append`: two statements about different keys write what one would.
* `Diff.exists_right`, `Diff.right_or_left`: deletes and upserts that follow a diff leave a right row
  for each item.
-/

namespace Keeper.SqlTable

variable {ι ρ κ τ : Type*}

/-- A row under its id. -/
structure Entry (ι ρ : Type*) where
  id : ι
  content : ρ
  deriving DecidableEq

/-- The unique indexes of a table: the key of a row, none where no index covers it, and the index
that a key belongs to. -/
structure Indexes (ρ κ τ : Type*) where
  key : ρ → Option κ
  index : κ → τ

inductive UpsertError (κ : Type*)
  | conflictTwice (key : κ)
  | duplicateKey (key : κ)
  deriving DecidableEq

variable (ix : Indexes ρ κ τ)

def Entry.key (e : Entry ι ρ) : Option κ := ix.key e.content

/-- No two entries share a key, or an id. -/
structure Valid (t : List (Entry ι ρ)) : Prop where
  keys : (t.filterMap (Entry.key ix)).Nodup
  ids : (t.map (·.id)).Nodup

section Upsert

variable [DecidableEq ι] [DecidableEq κ] [DecidableEq τ] (fresh : List ι → ι) (target : τ)

/-- One row of a statement. The statement may not write over a row that it has written itself, and a
conflict in an index other than its target fails it. -/
def upsertRow (state : List (Entry ι ρ) × List ι) (row : ρ) :
    Except (UpsertError κ) (List (Entry ι ρ) × List ι) :=
  let id := fresh (state.1.map (·.id))
  match ix.key row with
  | none => .ok (state.1 ++ [⟨id, row⟩], id :: state.2)
  | some k =>
    match state.1.find? fun e => e.key ix = some k with
    | none => .ok (state.1 ++ [⟨id, row⟩], id :: state.2)
    | some e =>
      if ix.index k ≠ target then .error (.duplicateKey k)
      else if state.2.contains e.id then .error (.conflictTwice k)
      else .ok (state.1.map fun e' => if e'.id = e.id then ⟨e.id, row⟩ else e', e.id :: state.2)

/-- A statement. -/
def upsertRows (t : List (Entry ι ρ)) (rows : List ρ) :
    Except (UpsertError κ) (List (Entry ι ρ)) := do
  let state ← rows.foldlM (upsertRow ix fresh target) (t, [])
  return state.1

end Upsert

/-- An upsert statement: its conflict target and its rows. -/
structure Statement (ρ τ : Type*) where
  target : τ
  rows : List ρ

def runStatements [DecidableEq ι] [DecidableEq κ] [DecidableEq τ] (fresh : List ι → ι)
    (t : List (Entry ι ρ)) (statements : List (Statement ρ τ)) :
    Except (UpsertError κ) (List (Entry ι ρ)) :=
  statements.foldlM (fun t s => upsertRows ix fresh s.target t s.rows) t

/-! ## What an upsert writes -/

/-- The rows are written over those with their keys, and the rest of the table stays. -/
structure Upserted (t : List (Entry ι ρ)) (rows : List ρ) (t' : List (Entry ι ρ)) : Prop where
  valid : Valid ix t'
  kept : ∀ e ∈ t, (∀ x ∈ rows, ix.key x ≠ e.key ix) → e ∈ t'
  written : ∀ x ∈ rows, ∃ e ∈ t', e.content = x
  only : ∀ e ∈ t', e.content ∈ rows ∨ e ∈ t ∧ ∀ x ∈ rows, ix.key x ≠ e.key ix

variable {ix}

theorem Valid.eq_of_key {t : List (Entry ι ρ)} (h : Valid ix t) {e e' : Entry ι ρ} (he : e ∈ t)
    (he' : e' ∈ t) {k : κ} (hk : e.key ix = some k) (hk' : e'.key ix = some k) : e = e' := by
  have hpairs := h.keys
  rw [List.Nodup, List.pairwise_filterMap] at hpairs
  by_contra hne
  have : Std.Symm fun x y : Entry ι ρ =>
      ∀ b, x.key ix = some b → ∀ b', y.key ix = some b' → b ≠ b' :=
    ⟨fun _ _ hxy b hb b' hb' heq => hxy b' hb' b hb heq.symm⟩
  exact hpairs.forall he he' hne k hk k hk' rfl

theorem Valid.eq_of_id {t : List (Entry ι ρ)} (h : Valid ix t) {e e' : Entry ι ρ} (he : e ∈ t)
    (he' : e' ∈ t) (hid : e.id = e'.id) : e = e' :=
  List.inj_on_of_nodup_map h.ids he he' hid

theorem Valid.filter {t : List (Entry ι ρ)} (h : Valid ix t) (p : Entry ι ρ → Bool) :
    Valid ix (t.filter p) where
  keys := h.keys.sublist (List.filter_sublist.filterMap _)
  ids := h.ids.sublist (List.filter_sublist.map _)

theorem Upserted.nil {t : List (Entry ι ρ)} (h : Valid ix t) : Upserted ix t [] t where
  valid := h
  kept e he _ := he
  written x hx := by cases hx
  only e he := Or.inr ⟨he, fun x hx => by cases hx⟩

/-- **Two statements about different keys** write what one would. -/
theorem Upserted.append {t t' t'' : List (Entry ι ρ)} {rows rows' : List ρ}
    (h : Upserted ix t rows t') (h' : Upserted ix t' rows' t'')
    (hkeys : ∀ x ∈ rows, ∀ y ∈ rows', ix.key y ≠ ix.key x) :
    Upserted ix t (rows ++ rows') t'' where
  valid := h'.valid
  kept e he hne := by
    refine h'.kept e (h.kept e he fun x hx => hne x (List.mem_append_left _ hx)) ?_
    exact fun x hx => hne x (List.mem_append_right _ hx)
  written x hx := by
    rcases List.mem_append.1 hx with hx | hx
    · obtain ⟨e, he, rfl⟩ := h.written x hx
      exact ⟨e, h'.kept e he fun y hy => hkeys e.content hx y hy, rfl⟩
    · exact h'.written x hx
  only e he := by
    rcases h'.only e he with he | ⟨he, hne⟩
    · exact Or.inl (List.mem_append_right _ he)
    · rcases h.only e he with he | ⟨he, hne'⟩
      · exact Or.inl (List.mem_append_left _ he)
      · refine Or.inr ⟨he, fun x hx => ?_⟩
        rcases List.mem_append.1 hx with hx | hx
        · exact hne' x hx
        · exact hne x hx

theorem Upserted.insert {t : List (Entry ι ρ)} (h : Valid ix t) {id : ι} (hid : id ∉ t.map (·.id))
    {row : ρ} {k : κ} (hk : ix.key row = some k) (hnew : ∀ e ∈ t, e.key ix ≠ some k) :
    Upserted ix t [row] (t ++ [⟨id, row⟩]) where
  valid := by
    have hkey : Entry.key ix ⟨id, row⟩ = some k := hk
    constructor
    · rw [List.filterMap_append, List.filterMap_cons_some hkey, List.filterMap_nil,
        List.nodup_append]
      refine ⟨h.keys, List.nodup_singleton _, ?_⟩
      rintro k' hk' k'' hk'' rfl
      rw [List.mem_singleton] at hk''
      subst hk''
      obtain ⟨e, he, hek⟩ := List.mem_filterMap.1 hk'
      exact hnew e he hek
    · rw [List.map_append, List.nodup_append]
      refine ⟨h.ids, List.nodup_singleton _, ?_⟩
      rintro i hi j hj rfl
      rw [List.map_singleton, List.mem_singleton] at hj
      subst hj
      exact hid hi
  kept e he _ := List.mem_append_left _ he
  written x hx := by
    rw [List.mem_singleton] at hx
    exact ⟨⟨id, row⟩, by simp, hx.symm⟩
  only e he := by
    rcases List.mem_append.1 he with he | he
    · refine Or.inr ⟨he, fun x hx => ?_⟩
      rw [List.mem_singleton] at hx
      rw [hx, hk]
      exact fun heq => hnew e he heq.symm
    · rw [List.mem_singleton] at he
      exact Or.inl (by simp [he])

section Replace

variable [DecidableEq ι]

theorem Upserted.replace {t : List (Entry ι ρ)} (h : Valid ix t) {e : Entry ι ρ} (he : e ∈ t)
    {row : ρ} {k : κ} (hk : ix.key row = some k) (hek : e.key ix = some k) :
    Upserted ix t [row] (t.map fun e' => if e'.id = e.id then ⟨e.id, row⟩ else e') := by
  have hsame : ∀ e' ∈ t, e'.id = e.id → e' = e := fun e' he' hid => h.eq_of_id he' he hid
  have hkeys : (t.map fun e' => if e'.id = e.id then (⟨e.id, row⟩ : Entry ι ρ) else e').filterMap
      (Entry.key ix) = t.filterMap (Entry.key ix) := by
    rw [List.filterMap_map]
    refine List.filterMap_congr fun e' he' => ?_
    simp only [Function.comp_apply]
    split_ifs with hid
    · rw [hsame e' he' hid, hek]
      exact hk
    · rfl
  have hids : (t.map fun e' => if e'.id = e.id then (⟨e.id, row⟩ : Entry ι ρ) else e').map (·.id) =
      t.map (·.id) := by
    rw [List.map_map]
    refine List.map_congr_left fun e' _ => ?_
    simp only [Function.comp_apply]
    split_ifs with hid
    · exact hid.symm
    · rfl
  refine ⟨⟨by rw [hkeys]; exact h.keys, by rw [hids]; exact h.ids⟩, ?_, ?_, ?_⟩
  · intro e' he' hne
    refine List.mem_map.2 ⟨e', he', if_neg fun hid => ?_⟩
    have hne' := hne row (List.mem_singleton_self _)
    rw [hsame e' he' hid, hek] at hne'
    exact hne' hk
  · intro x hx
    rw [List.mem_singleton] at hx
    exact ⟨⟨e.id, row⟩, List.mem_map.2 ⟨e, he, if_pos rfl⟩, hx.symm⟩
  · intro e'' he''
    obtain ⟨e', he', rfl⟩ := List.mem_map.1 he''
    split_ifs with hid
    · exact Or.inl (List.mem_singleton_self _)
    · refine Or.inr ⟨he', fun x hx => ?_⟩
      rw [List.mem_singleton] at hx
      rw [hx, hk]
      exact fun heq => hid (by rw [h.eq_of_key he' he heq.symm hek])

end Replace

section Run

variable [DecidableEq ι] [DecidableEq κ] [DecidableEq τ] {fresh : List ι → ι} {target : τ}

/-- The ids that a statement has written belong to rows that it has gone through. -/
def TouchedBy (rows : List ρ) (state : List (Entry ι ρ) × List ι) : Prop :=
  ∀ e ∈ state.1, e.id ∈ state.2 → e.content ∈ rows

/-- **One row of a statement** is written over the row with its key, or added. -/
theorem upsertRow_ok (hfresh : ∀ ids, fresh ids ∉ ids) {state : List (Entry ι ρ) × List ι}
    (hvalid : Valid ix state.1) {done : List ρ} (htouched : TouchedBy done state) {row : ρ}
    {k : κ} (hk : ix.key row = some k) (hindex : ix.index k = target)
    (hnew : ∀ x ∈ done, ix.key x ≠ some k) :
    ∃ state', upsertRow ix fresh target state row = .ok state' ∧
      Upserted ix state.1 [row] state'.1 ∧ TouchedBy (done ++ [row]) state' := by
  obtain ⟨t, touched⟩ := state
  cases hfind : t.find? fun e => e.key ix = some k with
  | none =>
    have hnone : ∀ e ∈ t, e.key ix ≠ some k := by simpa using hfind
    refine ⟨(t ++ [⟨fresh (t.map (·.id)), row⟩], fresh (t.map (·.id)) :: touched), ?_,
      Upserted.insert hvalid (hfresh _) hk hnone, ?_⟩
    · simp only [upsertRow, hk, hfind]
    · intro e he hid
      rcases List.mem_append.1 he with he | he
      · rcases List.mem_cons.1 hid with hid | hid
        · exact absurd (List.mem_map.2 ⟨e, he, hid⟩) (hfresh _)
        · exact List.mem_append_left _ (htouched e he hid)
      · rw [List.mem_singleton] at he
        exact List.mem_append_right _ (by simp [he])
  | some e =>
    have he : e ∈ t := List.mem_of_find?_eq_some hfind
    have hek : e.key ix = some k := by simpa using List.find?_some hfind
    have hfree : e.id ∉ touched := fun hid => hnew _ (htouched e he hid) hek
    refine ⟨(t.map fun e' => if e'.id = e.id then ⟨e.id, row⟩ else e', e.id :: touched), ?_,
      Upserted.replace hvalid he hk hek, ?_⟩
    · simp [upsertRow, hk, hfind, hindex, hfree]
    · intro e'' he'' hid
      obtain ⟨e', he', rfl⟩ := List.mem_map.1 he''
      split_ifs at hid ⊢ with hsame
      · exact List.mem_append_right _ (List.mem_singleton_self _)
      · rcases List.mem_cons.1 hid with hid | hid
        · exact absurd hid hsame
        · exact List.mem_append_left _ (htouched e' he' hid)

/-- The rows of a statement: covered by its target, with distinct keys. -/
structure Proposes (ix : Indexes ρ κ τ) (target : τ) (rows : List ρ) : Prop where
  covered : ∀ x ∈ rows, ∃ k, ix.key x = some k ∧ ix.index k = target
  distinct : (rows.map ix.key).Nodup

theorem foldlM_upsertRow_ok (hfresh : ∀ ids, fresh ids ∉ ids) {rows done : List ρ}
    {state : List (Entry ι ρ) × List ι} (hvalid : Valid ix state.1)
    (htouched : TouchedBy done state)
    (hcovered : ∀ x ∈ rows, ∃ k, ix.key x = some k ∧ ix.index k = target)
    (hdistinct : ((done ++ rows).map ix.key).Nodup) :
    ∃ state', rows.foldlM (upsertRow ix fresh target) state = .ok state' ∧
      Upserted ix state.1 rows state'.1 := by
  induction rows generalizing done state with
  | nil => exact ⟨state, rfl, .nil hvalid⟩
  | cons row rows ih =>
    obtain ⟨k, hk, hindex⟩ := hcovered row List.mem_cons_self
    have hparts := hdistinct
    rw [List.map_append, List.nodup_append] at hparts
    have hnew : ∀ x ∈ done, ix.key x ≠ some k := by
      intro x hx heq
      refine hparts.2.2 _ (List.mem_map_of_mem hx) (ix.key row) ?_ (by rw [heq, hk])
      exact List.mem_map_of_mem List.mem_cons_self
    obtain ⟨state', hrun, hup, htouched'⟩ :=
      upsertRow_ok hfresh hvalid htouched hk hindex hnew
    have hdistinct' : (((done ++ [row]) ++ rows).map ix.key).Nodup := by
      rwa [List.append_assoc]
    obtain ⟨state'', hrun', hup'⟩ := ih hup.valid htouched'
      (fun x hx => hcovered x (List.mem_cons_of_mem _ hx)) hdistinct'
    refine ⟨state'', by rw [List.foldlM_cons, hrun]; exact hrun', ?_⟩
    refine hup.append hup' fun x hx y hy heq => ?_
    rw [List.mem_singleton] at hx
    subst hx
    have hrows := hparts.2.1
    rw [List.map_cons, List.nodup_cons] at hrows
    exact hrows.1 (heq ▸ List.mem_map_of_mem hy)

/-- **A statement whose rows have distinct keys in its target** succeeds and writes them. -/
theorem upsertRows_ok (hfresh : ∀ ids, fresh ids ∉ ids) {t : List (Entry ι ρ)} {rows : List ρ}
    (hvalid : Valid ix t) (hrows : Proposes ix target rows) :
    ∃ t', upsertRows ix fresh target t rows = .ok t' ∧ Upserted ix t rows t' := by
  have htouched : TouchedBy ([] : List ρ) (t, ([] : List ι)) := fun e _ hid => by cases hid
  have hstart : Valid ix ((t, ([] : List ι)) : List (Entry ι ρ) × List ι).1 := hvalid
  obtain ⟨state, hrun, hup⟩ := foldlM_upsertRow_ok hfresh hstart htouched
    hrows.covered (by simpa using hrows.distinct)
  exact ⟨state.1, by rw [upsertRows, hrun]; rfl, hup⟩

/-- **Statements about distinct keys** succeed and write their rows. -/
theorem runStatements_ok (hfresh : ∀ ids, fresh ids ∉ ids) {t : List (Entry ι ρ)}
    {statements : List (Statement ρ τ)} (hvalid : Valid ix t)
    (hcovered : ∀ s ∈ statements, ∀ x ∈ s.rows, ∃ k, ix.key x = some k ∧ ix.index k = s.target)
    (hdistinct : ((statements.flatMap (·.rows)).map ix.key).Nodup) :
    ∃ t', runStatements ix fresh t statements = .ok t' ∧
      Upserted ix t (statements.flatMap (·.rows)) t' := by
  induction statements generalizing t with
  | nil => exact ⟨t, rfl, .nil hvalid⟩
  | cons s statements ih =>
    rw [List.flatMap_cons, List.map_append, List.nodup_append] at hdistinct
    obtain ⟨hs, hrest, hdisjoint⟩ := hdistinct
    obtain ⟨t', hrun, hup⟩ :=
      upsertRows_ok hfresh hvalid ⟨hcovered s List.mem_cons_self, hs⟩
    obtain ⟨t'', hrun', hup'⟩ := ih hup.valid
      (fun s' hs' => hcovered s' (List.mem_cons_of_mem _ hs')) hrest
    refine ⟨t'', ?_, ?_⟩
    · rw [runStatements, List.foldlM_cons, hrun]
      exact hrun'
    · rw [List.flatMap_cons]
      refine hup.append hup' fun x hx y hy heq => ?_
      exact hdisjoint _ (List.mem_map_of_mem hx) _ (List.mem_map_of_mem hy) heq.symm

/-- A row keeps what holds of it and of the table. -/
theorem upsertRow_forall {P : ρ → Prop} {state state' : List (Entry ι ρ) × List ι} {row : ρ}
    (hrow : P row) (hstate : ∀ e ∈ state.1, P e.content)
    (h : upsertRow ix fresh target state row = .ok state') : ∀ e ∈ state'.1, P e.content := by
  have hnew : ∀ id : ι, ∀ e ∈ state.1 ++ [⟨id, row⟩], P e.content := by
    intro id e he
    rcases List.mem_append.1 he with he | he
    · exact hstate e he
    · rwa [List.mem_singleton.1 he]
  unfold upsertRow at h
  dsimp only at h
  split at h
  · obtain rfl := Except.ok.inj h
    exact hnew _
  · split at h
    · obtain rfl := Except.ok.inj h
      exact hnew _
    · split_ifs at h
      obtain rfl := Except.ok.inj h
      intro e he
      obtain ⟨e', he', rfl⟩ := List.mem_map.1 he
      split_ifs
      · exact hrow
      · exact hstate e' he'

theorem upsertRows_forall {P : ρ → Prop} {rows : List ρ} (hrows : ∀ x ∈ rows, P x)
    {state state' : List (Entry ι ρ) × List ι} (hstate : ∀ e ∈ state.1, P e.content)
    (h : rows.foldlM (upsertRow ix fresh target) state = .ok state') :
    ∀ e ∈ state'.1, P e.content := by
  induction rows generalizing state with
  | nil =>
    obtain rfl := Except.ok.inj h
    exact hstate
  | cons row rows ih =>
    rw [List.foldlM_cons] at h
    obtain ⟨next, hnext, hrest⟩ := bind_eq_ok_iff.1 h
    exact ih (fun x hx => hrows x (List.mem_cons_of_mem _ hx))
      (upsertRow_forall (hrows row List.mem_cons_self) hstate hnext) hrest

/-- **A property of rows** that the table and the statements have is one of the table after them. -/
theorem runStatements_forall {P : ρ → Prop} {t t' : List (Entry ι ρ)}
    {statements : List (Statement ρ τ)} (hrows : ∀ s ∈ statements, ∀ x ∈ s.rows, P x)
    (ht : ∀ e ∈ t, P e.content) (h : runStatements ix fresh t statements = .ok t') :
    ∀ e ∈ t', P e.content := by
  induction statements generalizing t with
  | nil =>
    obtain rfl := Except.ok.inj h
    exact ht
  | cons s statements ih =>
    rw [runStatements, List.foldlM_cons] at h
    obtain ⟨next, hnext, hrest⟩ := bind_eq_ok_iff.1 h
    obtain ⟨state, hrun, hstate⟩ := bind_eq_ok_iff.1 hnext
    obtain rfl := Except.ok.inj hstate
    exact ih (fun s' hs' => hrows s' (List.mem_cons_of_mem _ hs'))
      (upsertRows_forall (hrows s List.mem_cons_self) ht hrun) hrest

end Run

theorem Upserted.congr {t t' : List (Entry ι ρ)} {rows rows' : List ρ}
    (h : Upserted ix t rows t') (hrows : ∀ x, x ∈ rows ↔ x ∈ rows') : Upserted ix t rows' t' where
  valid := h.valid
  kept e he hne := h.kept e he fun x hx => hne x ((hrows x).1 hx)
  written x hx := h.written x ((hrows x).2 hx)
  only e he := by
    rcases h.only e he with he | ⟨he, hne⟩
    · exact Or.inl ((hrows _).1 he)
    · exact Or.inr ⟨he, fun x hx => hne x ((hrows x).2 hx)⟩

/-! ## Bringing a table in line with a list of items -/

section Diff

variable {ε : Type*}

/-- A diff of a table against the items it should hold: `t₀` is what is left of `t` after the
deletes, and an item that is not added has a row of `t` that is right for it. A right row has the
key of its item. -/
structure Diff (ix : Indexes ρ κ τ) (Right : Entry ι ρ → ε → Prop) (row : ε → ρ)
    (t t₀ : List (Entry ι ρ)) (wanted added : List ε) : Prop where
  valid : Valid ix t
  left : ∀ entry ∈ t₀, entry ∈ t
  keyed : ∀ e ∈ wanted, (ix.key (row e)).isSome
  distinct : (wanted.map fun e => ix.key (row e)).Nodup
  key_eq : ∀ entry ∈ t, ∀ e ∈ wanted, Right entry e → entry.key ix = ix.key (row e)
  right_row : ∀ e ∈ wanted, ∀ id, Right ⟨id, row e⟩ e
  keeps : ∀ entry ∈ t, ∀ e ∈ wanted, Right entry e → entry ∈ t₀
  added_wanted : ∀ e ∈ added, e ∈ wanted
  exists_of_not_added : ∀ e ∈ wanted, e ∉ added → ∃ entry ∈ t, Right entry e

variable {Right : Entry ι ρ → ε → Prop} {row : ε → ρ} {t t₀ t' : List (Entry ι ρ)}
  {wanted added : List ε}

/-- **A right row** of an item that is not added stays. -/
theorem Diff.stays (h : Diff ix Right row t t₀ wanted added)
    (hup : Upserted ix t₀ (added.map row) t') {entry : Entry ι ρ} (he : entry ∈ t) {e : ε}
    (hwanted : e ∈ wanted) (hadded : e ∉ added) (hright : Right entry e) : entry ∈ t' := by
  refine hup.kept entry (h.keeps entry he e hwanted hright) fun x hx heq => ?_
  obtain ⟨e', he', rfl⟩ := List.mem_map.1 hx
  rw [h.key_eq entry he e hwanted hright] at heq
  have hsame : e' = e :=
    List.inj_on_of_nodup_map h.distinct (h.added_wanted e' he') hwanted heq
  subst hsame
  exact hadded he'

/-- **Every item** has a right row. -/
theorem Diff.exists_right (h : Diff ix Right row t t₀ wanted added)
    (hup : Upserted ix t₀ (added.map row) t') {e : ε} (hwanted : e ∈ wanted) :
    ∃ entry ∈ t', Right entry e := by
  by_cases hadded : e ∈ added
  · obtain ⟨⟨id, content⟩, hentry, rfl⟩ := hup.written (row e) (List.mem_map_of_mem hadded)
    exact ⟨_, hentry, h.right_row e hwanted id⟩
  · obtain ⟨entry, hentry, hright⟩ := h.exists_of_not_added e hwanted hadded
    exact ⟨entry, h.stays hup hentry hwanted hadded hright, hright⟩

/-- **Every row** is right for an item, or it was left and has the key of none. -/
theorem Diff.right_or_left (h : Diff ix Right row t t₀ wanted added)
    (hup : Upserted ix t₀ (added.map row) t') {entry : Entry ι ρ} (hentry : entry ∈ t') :
    (∃ e ∈ wanted, Right entry e) ∨
      entry ∈ t₀ ∧ ∀ e ∈ wanted, entry.key ix ≠ ix.key (row e) := by
  rcases hup.only entry hentry with hrow | ⟨hleft, hne⟩
  · obtain ⟨e, he, hcontent⟩ := List.mem_map.1 hrow
    have hwanted := h.added_wanted e he
    obtain ⟨id, content⟩ := entry
    obtain rfl : row e = content := hcontent
    exact Or.inl ⟨e, hwanted, h.right_row e hwanted id⟩
  · by_cases hkey : ∃ e ∈ wanted, entry.key ix = ix.key (row e)
    · obtain ⟨e, hwanted, hkey⟩ := hkey
      have hadded : e ∉ added := fun he => hne (row e) (List.mem_map_of_mem he) hkey.symm
      obtain ⟨entry', hentry', hright⟩ := h.exists_of_not_added e hwanted hadded
      obtain ⟨k, hk⟩ := Option.isSome_iff_exists.1 (h.keyed e hwanted)
      have hkey' := h.key_eq entry' hentry' e hwanted hright
      have hsame := h.valid.eq_of_key (h.left entry hleft) hentry' (hkey.trans hk) (hkey'.trans hk)
      subst hsame
      exact Or.inl ⟨e, hwanted, hright⟩
    · push Not at hkey
      exact Or.inr ⟨hleft, hkey⟩

end Diff

end Keeper.SqlTable
