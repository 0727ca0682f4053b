import PayReality.Encoding
import PayReality.Promotion.CompilationGate

/-!
# The diff of two approved graphs

`domain/authority_graph/diff.py`: two snapshots, section by section. The rows of a section are matched
by their ids, and the fields of matched rows are compared with `==`.

**Main result** `diffGraphSnapshots_delta`: the diff of two snapshots takes one to the other, the diff
the other way is its mirror image, and it is empty exactly when the snapshots are equal.
-/

namespace PayReality

namespace AuthorityGraph

open CompilationGate IntentService

/-! ## Dicts -/

/-- `sorted(set(xs))`. -/
def sortedSet (xs : List String) : List String := xs.dedup.insertionSort (· ≤ ·)

/-- The keys of a dict. -/
def dictKeys : Json → List String
  | .obj kvs => kvs.map Prod.fst
  | _ => []

/-- `d.get(k)`. -/
def dictGet (d : Json) (k : String) : Json := (d.get? k).getD .null

/-- `d[k] = v`. -/
def dictSet (d : Json) (k : String) (v : Json) : Json :=
  match d with
  | .obj kvs => .obj (withMember kvs k v)
  | _ => d

/-- `item["id"]`, where it is a text. -/
def idOf (item : Json) : Option String :=
  match item.get? "id" with
  | some (.str i) => some i
  | _ => none

/-! ## The diff -/

structure FieldChange where
  field : String
  before : Json
  after : Json

structure ChangedItem where
  id : String
  before : Json
  after : Json
  changedFields : List FieldChange

structure ItemDiff where
  added : List Json
  removed : List Json
  changed : List ChangedItem

structure CoverageDiff where
  before : Json
  after : Json
  changedFields : List FieldChange

structure GraphSnapshotDiff where
  principals : ItemDiff
  relationships : ItemDiff
  conflicts : ItemDiff
  gaps : ItemDiff
  coverage : CoverageDiff

/-- A row under its id, where that is a text. -/
def addToIndex (d : List (String × Json)) (row : Json) : List (String × Json) :=
  match idOf row with
  | some i => withMember d i row
  | none => d

/-- `_index_by_id`. -/
def indexById (rows : List Json) : List (String × Json) := rows.foldl addToIndex []

/-- The fields of two dicts that differ, but for those that are left out. -/
def fieldChanges (leftOut : List String) (b a : Json) : List FieldChange :=
  ((sortedSet (dictKeys b ++ dictKeys a)).filter fun k =>
    k ∉ leftOut ∧ (dictGet b k).pyEq (dictGet a k) = false).map fun k =>
      ⟨k, dictGet b k, dictGet a k⟩

def changedItem (i : String) (b a : Json) : Option ChangedItem :=
  let changedFields := fieldChanges ["id"] b a
  if changedFields.isEmpty then none else some ⟨i, b, a, changedFields⟩

/-- `_diff_items`. -/
def diffItems (beforeList afterList : List Json) : ItemDiff :=
  let before := indexById beforeList
  let after := indexById afterList
  { added := (sortedSet ((after.map Prod.fst).filter (· ∉ before.map Prod.fst))).filterMap
      (Json.obj after).get?
    removed := (sortedSet ((before.map Prod.fst).filter (· ∉ after.map Prod.fst))).filterMap
      (Json.obj before).get?
    changed := (sortedSet ((before.map Prod.fst).filter (· ∈ after.map Prod.fst))).filterMap fun i =>
      ((Json.obj before).get? i).bind fun b =>
        ((Json.obj after).get? i).bind fun a => changedItem i b a }

/-- `snapshot.get("coverage") or {}`. -/
def coverageOf (snapshot : Json) : Json :=
  match snapshot.get? "coverage" with
  | some (.obj kvs) => .obj kvs
  | _ => .obj []

/-- `_diff_coverage`. -/
def diffCoverage (before after : Json) : CoverageDiff where
  before := before
  after := after
  changedFields := fieldChanges [] before after

/-- `diff_graph_snapshots`. -/
def diffGraphSnapshots (fromSnapshot toSnapshot : Json) : GraphSnapshotDiff where
  principals := diffItems (items fromSnapshot "principals") (items toSnapshot "principals")
  relationships := diffItems (items fromSnapshot "relationships") (items toSnapshot "relationships")
  conflicts := diffItems (items fromSnapshot "conflicts") (items toSnapshot "conflicts")
  gaps := diffItems (items fromSnapshot "gaps") (items toSnapshot "gaps")
  coverage := diffCoverage (coverageOf fromSnapshot) (coverageOf toSnapshot)

/-! ## What a diff says -/

/-- The fields set to what they are after. -/
def applyFields (changes : List FieldChange) (d : Json) : Json :=
  changes.foldl (fun d change => dictSet d change.field change.after) d

/-- The row, with the changes under its id. -/
def applyChanges (changed : List ChangedItem) (row : Json) : Json :=
  applyFields ((changed.filter fun c => idOf row = some c.id).flatMap ChangedItem.changedFields) row

namespace ItemDiff

/-- The rows without those removed, with the fields changed, and with those added. -/
def apply (diff : ItemDiff) (rows : List Json) : List Json :=
  (rows.filter fun row => idOf row ∉ diff.removed.map idOf).map (applyChanges diff.changed) ++
    diff.added

def isEmpty (diff : ItemDiff) : Prop := diff.added = [] ∧ diff.removed = [] ∧ diff.changed = []

end ItemDiff

def FieldChange.mirror (c : FieldChange) : FieldChange := ⟨c.field, c.after, c.before⟩

def ChangedItem.mirror (c : ChangedItem) : ChangedItem :=
  ⟨c.id, c.after, c.before, c.changedFields.map FieldChange.mirror⟩

def ItemDiff.mirror (diff : ItemDiff) : ItemDiff :=
  ⟨diff.removed, diff.added, diff.changed.map ChangedItem.mirror⟩

def CoverageDiff.mirror (diff : CoverageDiff) : CoverageDiff :=
  ⟨diff.after, diff.before, diff.changedFields.map FieldChange.mirror⟩

namespace GraphSnapshotDiff

def mirror (diff : GraphSnapshotDiff) : GraphSnapshotDiff where
  principals := diff.principals.mirror
  relationships := diff.relationships.mirror
  conflicts := diff.conflicts.mirror
  gaps := diff.gaps.mirror
  coverage := diff.coverage.mirror

/-- The snapshot with the changes of every section. -/
def apply (diff : GraphSnapshotDiff) (snapshot : Json) : Json :=
  .obj [("principals", .arr (diff.principals.apply (items snapshot "principals"))),
    ("relationships", .arr (diff.relationships.apply (items snapshot "relationships"))),
    ("conflicts", .arr (diff.conflicts.apply (items snapshot "conflicts"))),
    ("gaps", .arr (diff.gaps.apply (items snapshot "gaps"))),
    ("coverage", applyFields diff.coverage.changedFields (coverageOf snapshot))]

def IsEmpty (diff : GraphSnapshotDiff) : Prop :=
  diff.principals.isEmpty ∧ diff.relationships.isEmpty ∧ diff.conflicts.isEmpty ∧
    diff.gaps.isEmpty ∧ diff.coverage.changedFields = []

end GraphSnapshotDiff

/-! ## Snapshots -/

/-- A dict with these keys. -/
structure DictOf (fields : List String) (d : Json) : Prop where
  dict : ∃ kvs, d = .obj kvs ∧ (kvs.map Prod.fst).Nodup
  keys : ∀ k, k ∈ dictKeys d ↔ k ∈ fields

/-- Dicts with these keys, whose ids are texts and distinct. -/
structure RowsOf (fields : List String) (rows : List Json) : Prop where
  dicts : ∀ row ∈ rows, DictOf fields row
  ids : ∀ row ∈ rows, (idOf row).isSome
  distinct : (rows.map idOf).Nodup

/-- The shape that `_corpus_evidence_snapshot` gives, with the keys of each section. -/
structure SnapshotOf (fields : String → List String) (snapshot : Json) : Prop where
  principals : RowsOf (fields "principals") (items snapshot "principals")
  relationships : RowsOf (fields "relationships") (items snapshot "relationships")
  conflicts : RowsOf (fields "conflicts") (items snapshot "conflicts")
  gaps : RowsOf (fields "gaps") (items snapshot "gaps")
  coverage : DictOf (fields "coverage") (coverageOf snapshot)

/-- Every row has one under its id that equals it. -/
def Covered (rows rows' : List Json) : Prop :=
  ∀ row ∈ rows, ∃ row' ∈ rows', idOf row' = idOf row ∧ row.pyEq row' = true

/-- The rows are equal as sets indexed by the ids. -/
def SameRows (rows rows' : List Json) : Prop := Covered rows rows' ∧ Covered rows' rows

structure SameSnapshot (s s' : Json) : Prop where
  principals : SameRows (items s "principals") (items s' "principals")
  relationships : SameRows (items s "relationships") (items s' "relationships")
  conflicts : SameRows (items s "conflicts") (items s' "conflicts")
  gaps : SameRows (items s "gaps") (items s' "gaps")
  coverage : (coverageOf s).pyEq (coverageOf s') = true

/-! ## Sorted sets -/

theorem mem_sortedSet {xs : List String} {k : String} : k ∈ sortedSet xs ↔ k ∈ xs := by
  simp [sortedSet]

theorem sortedSet_nodup (xs : List String) : (sortedSet xs).Nodup :=
  (List.perm_insertionSort _ _).nodup_iff.2 xs.nodup_dedup

/-- A set is sorted in one way. -/
theorem sortedSet_congr {xs ys : List String} (h : ∀ k, k ∈ xs ↔ k ∈ ys) :
    sortedSet xs = sortedSet ys := by
  have hperm : (sortedSet xs).Perm (sortedSet ys) := by
    rw [List.perm_ext_iff_of_nodup (sortedSet_nodup xs) (sortedSet_nodup ys)]
    intro k
    rw [mem_sortedSet, mem_sortedSet, h]
  exact hperm.eq_of_pairwise (fun a b _ _ => le_antisymm) (List.pairwise_insertionSort _ _)
    (List.pairwise_insertionSort _ _)

/-! ## Dicts with the same keys -/

theorem pyEq_iff {x y : Json} : x.pyEq y = true ↔ x.key true = y.key true := by
  simp [Json.pyEq]

/-- Dicts whose lookups are equal are equal. -/
theorem key_of_get? {py : Bool} {kvs kvs' : List (String × Json)} (hd : (kvs.map Prod.fst).Nodup)
    (hd' : (kvs'.map Prod.fst).Nodup)
    (h : ∀ k, ((Json.obj kvs).get? k).map (Json.key py) = ((Json.obj kvs').get? k).map (Json.key py)) :
    (Json.obj kvs).key py = (Json.obj kvs').key py := by
  have hkeys : ∀ ds : List (String × Json), (Json.entries py ds).map Prod.fst = ds.map Prod.fst := by
    intro ds
    rw [Json.entries_eq, List.map_map]
    rfl
  have hmem : ∀ ds : List (String × Json), (ds.map Prod.fst).Nodup → ∀ e,
      e ∈ Json.entries py ds ↔ ((Json.obj ds).get? e.1).map (Json.key py) = some e.2 := by
    intro ds hds e
    simp only [Json.entries_eq, List.mem_map, Option.map_eq_some_iff]
    constructor
    · intro he
      obtain ⟨d, hmem, rfl⟩ := he
      exact ⟨d.2, Json.get?_of_mem hds hmem, rfl⟩
    · intro he
      obtain ⟨v, hv, hkey⟩ := he
      exact ⟨(e.1, v), Json.mem_of_get? hv, by simp [hkey]⟩
  have hnodup : (Json.entries py kvs).Nodup := .of_map Prod.fst (hkeys kvs ▸ hd)
  have hnodup' : (Json.entries py kvs').Nodup := .of_map Prod.fst (hkeys kvs' ▸ hd')
  have hentries : (Json.entries py kvs).Perm (Json.entries py kvs') := by
    rw [List.perm_ext_iff_of_nodup hnodup hnodup']
    intro e
    rw [hmem kvs hd, hmem kvs' hd', h]
  have : Std.Total fun a b : String × List Json.Token => a.1 ≤ b.1 := ⟨fun a b => le_total _ _⟩
  have : IsTrans (String × List Json.Token) fun a b => a.1 ≤ b.1 := ⟨fun _ _ _ => le_trans⟩
  have hsorted : (Json.entries py kvs).insertionSort (fun a b => a.1 ≤ b.1) =
      (Json.entries py kvs').insertionSort fun a b => a.1 ≤ b.1 := by
    refine List.Perm.eq_of_pairwise ?_ (List.pairwise_insertionSort _ _)
      (List.pairwise_insertionSort _ _) (((List.perm_insertionSort _ _).trans hentries).trans
        (List.perm_insertionSort _ _).symm)
    intro a b ha hb hab hba
    rw [List.mem_insertionSort] at ha hb
    exact List.inj_on_of_nodup_map (hkeys kvs ▸ hd) ha (hentries.mem_iff.2 hb) (le_antisymm hab hba)
  rw [Json.key, Json.key, hsorted]

namespace DictOf

variable {fields : List String} {x y : Json}

theorem get?_eq_none (h : DictOf fields x) {k : String} (hk : k ∉ fields) : x.get? k = none := by
  obtain ⟨kvs, rfl, -⟩ := h.dict
  rw [Json.get?_eq_none]
  exact mt (h.keys k).1 hk

theorem get?_eq_some (h : DictOf fields x) {k : String} (hk : k ∈ fields) :
    x.get? k = some (dictGet x k) := by
  obtain ⟨kvs, rfl, -⟩ := h.dict
  have hsome : ((Json.obj kvs).get? k).isSome := Json.get?_isSome.2 ((h.keys k).2 hk)
  obtain ⟨v, hv⟩ := Option.isSome_iff_exists.1 hsome
  simp [dictGet, hv]

/-- Dicts with the same keys are equal when their values are. -/
theorem pyEq_iff_fields (hx : DictOf fields x) (hy : DictOf fields y) :
    x.pyEq y = true ↔ ∀ k ∈ fields, (dictGet x k).pyEq (dictGet y k) = true := by
  constructor
  · intro h k hk
    have := Json.key_get? (pyEq_iff.1 h) k
    rw [hx.get?_eq_some hk, hy.get?_eq_some hk] at this
    exact pyEq_iff.2 (Option.some.inj this)
  · intro h
    have hget : ∀ k, (x.get? k).map (Json.key true) = (y.get? k).map (Json.key true) := by
      intro k
      by_cases hk : k ∈ fields
      · rw [hx.get?_eq_some hk, hy.get?_eq_some hk, Option.map_some, Option.map_some,
          pyEq_iff.1 (h k hk)]
      · rw [hx.get?_eq_none hk, hy.get?_eq_none hk]
    obtain ⟨kvs, rfl, hd⟩ := hx.dict
    obtain ⟨kvs', rfl, hd'⟩ := hy.dict
    exact pyEq_iff.2 (key_of_get? hd hd' hget)

theorem set (h : DictOf fields x) {k : String} (hk : k ∈ fields) (v : Json) :
    DictOf fields (dictSet x k v) := by
  obtain ⟨kvs, rfl, hd⟩ := h.dict
  have hmem : k ∈ kvs.map Prod.fst := (h.keys k).2 hk
  refine ⟨⟨_, rfl, nodup_withMember hd⟩, ?_⟩
  intro l
  rw [← h.keys l]
  simp [dictSet, dictKeys, keys_withMember, hmem]

theorem get?_set (h : DictOf fields x) (k l : String) (v : Json) :
    (dictSet x k v).get? l = if l = k then some v else x.get? l := by
  obtain ⟨kvs, rfl, -⟩ := h.dict
  by_cases hl : l = k
  · subst hl
    simp [dictSet, Evidence.get?_withMember_self]
  · simp [dictSet, Evidence.get?_withMember_of_ne _ _ hl, hl]

theorem applyFields (h : DictOf fields x) {changes : List FieldChange}
    (hchanges : ∀ c ∈ changes, c.field ∈ fields) : DictOf fields (applyFields changes x) := by
  induction changes generalizing x with
  | nil => exact h
  | cons c changes ih =>
    exact ih (h.set (hchanges c (by simp)) c.after) fun d hd => hchanges d (by simp [hd])

/-- A field that no change names stays. -/
theorem get?_applyFields_of_not_mem (h : DictOf fields x) {changes : List FieldChange}
    (hchanges : ∀ c ∈ changes, c.field ∈ fields) {k : String}
    (hk : ∀ c ∈ changes, c.field ≠ k) : (AuthorityGraph.applyFields changes x).get? k = x.get? k := by
  induction changes generalizing x with
  | nil => rfl
  | cons c changes ih =>
    have hne : ¬ k = c.field := fun heq => hk c (by simp) heq.symm
    rw [AuthorityGraph.applyFields, List.foldl_cons]
    refine (ih (h.set (hchanges c (by simp)) c.after) (fun d hd => hchanges d (by simp [hd]))
      fun d hd => hk d (by simp [hd])).trans ?_
    rw [h.get?_set, if_neg hne]

/-- A field has the value that its changes agree on. -/
theorem get?_applyFields_of_mem (h : DictOf fields x) {changes : List FieldChange}
    (hchanges : ∀ c ∈ changes, c.field ∈ fields) {k : String} {v : Json}
    (hex : ∃ c ∈ changes, c.field = k) (hv : ∀ c ∈ changes, c.field = k → c.after = v) :
    (AuthorityGraph.applyFields changes x).get? k = some v := by
  induction changes generalizing x with
  | nil => simp at hex
  | cons c changes ih =>
    have hset := h.set (hchanges c (by simp)) c.after
    have hrest : ∀ d ∈ changes, d.field ∈ fields := fun d hd => hchanges d (by simp [hd])
    by_cases hlater : ∃ d ∈ changes, d.field = k
    · exact ih hset hrest hlater fun d hd => hv d (by simp [hd])
    · have hck : c.field = k := by
        obtain ⟨d, hd, hdk⟩ := hex
        obtain heq | hmem := List.mem_cons.1 hd
        · rw [← heq, hdk]
        · exact absurd ⟨d, hmem, hdk⟩ hlater
      have hkeep := hset.get?_applyFields_of_not_mem hrest (k := k)
        fun d hd hdk => hlater ⟨d, hd, hdk⟩
      rw [AuthorityGraph.applyFields, List.foldl_cons]
      refine hkeep.trans ?_
      rw [h.get?_set, if_pos hck.symm, hv c (by simp) hck]

end DictOf

/-! ## Fields -/

section Fields

variable {fields leftOut : List String} {x y : Json}

theorem fieldChanges_mirror (leftOut : List String) (b a : Json) :
    fieldChanges leftOut a b = (fieldChanges leftOut b a).map FieldChange.mirror := by
  have hkeys : sortedSet (dictKeys a ++ dictKeys b) = sortedSet (dictKeys b ++ dictKeys a) :=
    sortedSet_congr fun k => by simp [or_comm]
  have hcomm : ∀ k, (dictGet a k).pyEq (dictGet b k) = (dictGet b k).pyEq (dictGet a k) := by
    intro k
    simp [Json.pyEq, eq_comm]
  simp only [fieldChanges, hkeys, List.map_map, hcomm]
  rfl

theorem mem_fieldChanges {b a : Json} {c : FieldChange} : c ∈ fieldChanges leftOut b a ↔
    (c.field ∈ dictKeys b ∨ c.field ∈ dictKeys a) ∧ c.field ∉ leftOut ∧
      (dictGet b c.field).pyEq (dictGet a c.field) = false ∧
      c.before = dictGet b c.field ∧ c.after = dictGet a c.field := by
  simp only [fieldChanges, List.mem_map, List.mem_filter, mem_sortedSet, List.mem_append,
    decide_eq_true_eq]
  constructor
  · intro h
    obtain ⟨k, ⟨hk, hout, hne⟩, rfl⟩ := h
    exact ⟨hk, hout, hne, rfl, rfl⟩
  · intro h
    obtain ⟨hk, hout, hne, hb, ha⟩ := h
    exact ⟨c.field, ⟨hk, hout, hne⟩, by cases c; simp_all⟩

theorem field_mem (hx : DictOf fields x) (hy : DictOf fields y) {c : FieldChange}
    (hc : c ∈ fieldChanges leftOut x y) : c.field ∈ fields := by
  obtain hk | hk := (mem_fieldChanges.1 hc).1
  · exact (hx.keys _).1 hk
  · exact (hy.keys _).1 hk

/-- Nothing is reported of dicts that are equal, and only of those. -/
theorem fieldChanges_eq_nil (hx : DictOf fields x) (hy : DictOf fields y)
    (hout : ∀ k ∈ leftOut, (dictGet x k).pyEq (dictGet y k) = true) :
    fieldChanges leftOut x y = [] ↔ x.pyEq y = true := by
  rw [hx.pyEq_iff_fields hy, List.eq_nil_iff_forall_not_mem]
  constructor
  · intro h k hk
    by_cases hleft : k ∈ leftOut
    · exact hout k hleft
    · by_contra hne
      refine h ⟨k, dictGet x k, dictGet y k⟩ (mem_fieldChanges.2 ⟨.inl ((hx.keys k).2 hk), hleft, ?_, rfl, rfl⟩)
      simpa using hne
  · intro h c hc
    have heq := h c.field (field_mem hx hy hc)
    have hne := (mem_fieldChanges.1 hc).2.2.1
    simp [heq] at hne

/-- **The changes of a dict take it to the other.** -/
theorem applyFields_pyEq (hx : DictOf fields x) (hy : DictOf fields y)
    (hout : ∀ k ∈ leftOut, (dictGet x k).pyEq (dictGet y k) = true) :
    (applyFields (fieldChanges leftOut x y) x).pyEq y = true := by
  have hfields : ∀ c ∈ fieldChanges leftOut x y, c.field ∈ fields := fun c hc => field_mem hx hy hc
  rw [(hx.applyFields hfields).pyEq_iff_fields hy]
  intro k hk
  by_cases hchanged : ∃ c ∈ fieldChanges leftOut x y, c.field = k
  · have hafter : ∀ c ∈ fieldChanges leftOut x y, c.field = k → c.after = dictGet y k := by
      intro c hc hck
      rw [← hck]
      exact (mem_fieldChanges.1 hc).2.2.2.2
    rw [dictGet, hx.get?_applyFields_of_mem hfields hchanged hafter]
    simp [Json.pyEq]
  · have hkeep : ∀ c ∈ fieldChanges leftOut x y, c.field ≠ k := fun c hc hck => hchanged ⟨c, hc, hck⟩
    rw [dictGet, hx.get?_applyFields_of_not_mem hfields hkeep, ← dictGet]
    by_cases hleft : k ∈ leftOut
    · exact hout k hleft
    · by_contra hne
      refine hchanged ⟨⟨k, dictGet x k, dictGet y k⟩, mem_fieldChanges.2
        ⟨.inl ((hx.keys k).2 hk), hleft, ?_, rfl, rfl⟩, rfl⟩
      simpa using hne

end Fields

/-! ## Rows by id -/

theorem indexById_append (d : List (String × Json)) (rows : List Json)
    (hfresh : ∀ row ∈ rows, ∀ i ∈ d.map Prod.fst, idOf row ≠ some i)
    (hids : ∀ row ∈ rows, (idOf row).isSome) (hdistinct : (rows.map idOf).Nodup) :
    rows.foldl addToIndex d = d ++ rows.map fun row => ((idOf row).getD "", row) := by
  induction rows generalizing d with
  | nil => simp
  | cons row rows ih =>
    obtain ⟨i, hi⟩ := Option.isSome_iff_exists.1 (hids row (by simp))
    rw [List.map_cons, List.nodup_cons] at hdistinct
    have hnew : ¬ (d.any fun e => e.1 = i) = true := by
      simp only [List.any_eq_true, not_exists, not_and, decide_eq_true_eq]
      intro e he hei
      exact hfresh row (by simp) e.1 (List.mem_map_of_mem he) (by rw [hi, hei])
    have hadd : addToIndex d row = d ++ [(i, row)] := by
      simp only [addToIndex, hi, withMember, if_neg hnew]
    rw [List.foldl_cons, hadd, ih]
    · simp [hi]
    · intro row' hrow' j hj heq
      rw [List.map_append, List.mem_append] at hj
      obtain hj | hj := hj
      · exact hfresh row' (by simp [hrow']) j hj heq
      · have hji : j = i := by simpa using hj
        exact hdistinct.1 (hi ▸ hji ▸ heq ▸ List.mem_map_of_mem hrow')
    · exact fun row' hrow' => hids row' (by simp [hrow'])
    · exact hdistinct.2

namespace RowsOf

variable {fields : List String} {rows : List Json}

theorem indexById_eq (h : RowsOf fields rows) :
    indexById rows = rows.map fun row => ((idOf row).getD "", row) := by
  rw [indexById, indexById_append [] rows (by simp) h.ids h.distinct, List.nil_append]

theorem mem_index_keys (h : RowsOf fields rows) {i : String} :
    i ∈ (indexById rows).map Prod.fst ↔ ∃ row ∈ rows, idOf row = some i := by
  rw [h.indexById_eq, List.map_map, List.mem_map]
  constructor
  · intro hi
    obtain ⟨row, hrow, hi⟩ := hi
    obtain ⟨j, hj⟩ := Option.isSome_iff_exists.1 (h.ids row hrow)
    refine ⟨row, hrow, ?_⟩
    simpa [hj] using hi
  · intro hi
    obtain ⟨row, hrow, hi⟩ := hi
    exact ⟨row, hrow, by simp [hi]⟩

theorem index_nodup (h : RowsOf fields rows) : ((indexById rows).map Prod.fst).Nodup := by
  rw [h.indexById_eq, List.map_map]
  have hinj : ∀ x ∈ rows.map idOf, ∀ y ∈ rows.map idOf, x.getD "" = y.getD "" → x = y := by
    intro x hx y hy heq
    obtain ⟨row, hrow, rfl⟩ := List.mem_map.1 hx
    obtain ⟨row', hrow', rfl⟩ := List.mem_map.1 hy
    obtain ⟨i, hi⟩ := Option.isSome_iff_exists.1 (h.ids row hrow)
    obtain ⟨j, hj⟩ := Option.isSome_iff_exists.1 (h.ids row' hrow')
    simpa [hi, hj] using heq
  have := h.distinct.map_on hinj
  rwa [List.map_map] at this

theorem get?_index (h : RowsOf fields rows) {i : String} {row : Json} :
    (Json.obj (indexById rows)).get? i = some row ↔ row ∈ rows ∧ idOf row = some i := by
  have hmem : (i, row) ∈ indexById rows ↔ row ∈ rows ∧ idOf row = some i := by
    rw [h.indexById_eq, List.mem_map]
    constructor
    · intro he
      obtain ⟨row', hrow', heq⟩ := he
      obtain ⟨hi, rfl⟩ := Prod.ext_iff.1 heq
      obtain ⟨j, hj⟩ := Option.isSome_iff_exists.1 (h.ids _ hrow')
      refine ⟨hrow', ?_⟩
      simpa [hj] using hi
    · intro he
      exact ⟨row, he.1, by simp [he.2]⟩
  rw [← hmem]
  exact ⟨Json.mem_of_get?, Json.get?_of_mem h.index_nodup⟩

theorem unique (h : RowsOf fields rows) {row row' : Json} (hrow : row ∈ rows) (hrow' : row' ∈ rows)
    (hid : idOf row = idOf row') : row = row' :=
  List.inj_on_of_nodup_map h.distinct hrow hrow' hid

end RowsOf

/-! ## The diff of a section -/

/-- **The diff of a section the other way is its mirror image.** -/
theorem diffItems_mirror (xs ys : List Json) : diffItems ys xs = (diffItems xs ys).mirror := by
  have hcommon : sortedSet (((indexById ys).map Prod.fst).filter (· ∈ (indexById xs).map Prod.fst)) =
      sortedSet (((indexById xs).map Prod.fst).filter (· ∈ (indexById ys).map Prod.fst)) :=
    sortedSet_congr fun k => by simp only [List.mem_filter, decide_eq_true_eq]; tauto
  have hitem : ∀ i x y, changedItem i y x = (changedItem i x y).map ChangedItem.mirror := by
    intro i x y
    rw [changedItem, changedItem, fieldChanges_mirror ["id"] x y]
    cases fieldChanges ["id"] x y with
    | nil => rfl
    | cons c cs => rfl
  simp only [diffItems, ItemDiff.mirror, hcommon, List.map_filterMap, ItemDiff.mk.injEq, true_and]
  refine List.filterMap_congr fun i _ => ?_
  cases (Json.obj (indexById xs)).get? i with
  | none => cases (Json.obj (indexById ys)).get? i <;> rfl
  | some x =>
    cases (Json.obj (indexById ys)).get? i with
    | none => rfl
    | some y => exact hitem i x y

theorem id_pyEq {x y : Json} {i : String} (hxi : idOf x = some i) (hyi : idOf y = some i) :
    ∀ k ∈ ["id"], (dictGet x k).pyEq (dictGet y k) = true := by
  have hget : ∀ z : Json, idOf z = some i → dictGet z "id" = .str i := by
    intro z hz
    unfold idOf at hz
    split at hz
    · next j hj =>
      rw [dictGet, hj]
      simpa using hz
    · simp at hz
  intro k hk
  have hk : k = "id" := by simpa using hk
  subst hk
  rw [hget x hxi, hget y hyi]
  simp [Json.pyEq]

theorem id_of_changedItem {i : String} {b a : Json} {c : ChangedItem}
    (h : changedItem i b a = some c) : c.id = i := by
  simp only [changedItem] at h
  split at h
  · simp at h
  · rw [← Option.some.inj h]

/-- What is made of one index among others. -/
theorem filter_filterMap_id {is : List String} {f : String → Option ChangedItem} (hd : is.Nodup)
    (hf : ∀ j c, f j = some c → c.id = j) {i : String} (hi : i ∈ is) :
    (is.filterMap f).filter (fun c => c.id = i) = (f i).toList := by
  have hother : ∀ js : List String, i ∉ js → (js.filterMap f).filter (fun c => c.id = i) = [] := by
    intro js hjs
    rw [List.filter_eq_nil_iff]
    intro c hc
    obtain ⟨j, hj, hjc⟩ := List.mem_filterMap.1 hc
    have hji : j ≠ i := fun heq => hjs (heq ▸ hj)
    simpa [hf j c hjc] using hji
  induction is with
  | nil => simp at hi
  | cons j js ih =>
    obtain ⟨hj, hd⟩ := List.nodup_cons.1 hd
    rw [List.filterMap_cons]
    by_cases hji : j = i
    · subst hji
      cases hfj : f j with
      | none => simpa [hfj] using hother js hj
      | some c => simp [hf j c hfj, hother js hj]
    · have hi : i ∈ js := by
        obtain heq | hmem := List.mem_cons.1 hi
        · exact absurd heq.symm hji
        · exact hmem
      cases hfj : f j with
      | none => exact ih hd hi
      | some c =>
        have hne : ¬ c.id = i := by rw [hf j c hfj]; exact hji
        simpa [hne] using ih hd hi

section Items

variable {fields : List String} {xs ys : List Json} (hx : RowsOf fields xs) (hy : RowsOf fields ys)

include hx hy

theorem mem_added {y : Json} :
    y ∈ (diffItems xs ys).added ↔ y ∈ ys ∧ ∀ x ∈ xs, idOf x ≠ idOf y := by
  simp only [diffItems, List.mem_filterMap, mem_sortedSet, List.mem_filter, decide_eq_true_eq,
    hy.get?_index, hx.mem_index_keys]
  constructor
  · intro h
    obtain ⟨i, ⟨-, hnew⟩, hmem, hi⟩ := h
    exact ⟨hmem, fun x hxm heq => hnew ⟨x, hxm, heq.trans hi⟩⟩
  · intro h
    obtain ⟨i, hi⟩ := Option.isSome_iff_exists.1 (hy.ids y h.1)
    refine ⟨i, ⟨hy.mem_index_keys.2 ⟨y, h.1, hi⟩, ?_⟩, h.1, hi⟩
    intro hex
    obtain ⟨x, hxm, hxi⟩ := hex
    exact h.2 x hxm (hxi.trans hi.symm)

theorem mem_removed {x : Json} :
    x ∈ (diffItems xs ys).removed ↔ x ∈ xs ∧ ∀ y ∈ ys, idOf y ≠ idOf x := by
  have := mem_added hy hx (y := x)
  rw [diffItems_mirror] at this
  exact this

/-- The changed rows are those that are under one id in both sections. -/
theorem mem_changed {c : ChangedItem} : c ∈ (diffItems xs ys).changed ↔
    ∃ i, ∃ x ∈ xs, ∃ y ∈ ys, idOf x = some i ∧ idOf y = some i ∧ changedItem i x y = some c := by
  simp only [diffItems, List.mem_filterMap, mem_sortedSet, List.mem_filter, decide_eq_true_eq,
    Option.bind_eq_some_iff, hy.get?_index, hx.get?_index, hx.mem_index_keys, hy.mem_index_keys]
  constructor
  · intro h
    obtain ⟨i, -, x, ⟨hxm, hxi⟩, y, ⟨hym, hyi⟩, hc⟩ := h
    exact ⟨i, x, hxm, y, hym, hxi, hyi, hc⟩
  · intro h
    obtain ⟨i, x, hxm, y, hym, hxi, hyi, hc⟩ := h
    exact ⟨i, ⟨⟨x, hxm, hxi⟩, y, hym, hyi⟩, x, ⟨hxm, hxi⟩, y, ⟨hym, hyi⟩, hc⟩

/-- The changes under an id are those of its two rows. -/
theorem changes_eq {x y : Json} {i : String} (hxm : x ∈ xs) (hym : y ∈ ys) (hxi : idOf x = some i)
    (hyi : idOf y = some i) :
    ((diffItems xs ys).changed.filter fun c => idOf x = some c.id).flatMap ChangedItem.changedFields =
      fieldChanges ["id"] x y := by
  have hpred : (fun c : ChangedItem => decide (idOf x = some c.id)) =
      fun c => decide (c.id = i) := by
    funext c
    simp [hxi, eq_comm]
  have hcommon : i ∈ sortedSet (((indexById xs).map Prod.fst).filter
      (· ∈ (indexById ys).map Prod.fst)) := by
    rw [mem_sortedSet, List.mem_filter, decide_eq_true_eq, hx.mem_index_keys, hy.mem_index_keys]
    exact ⟨⟨x, hxm, hxi⟩, y, hym, hyi⟩
  have hid : ∀ j c, (((Json.obj (indexById xs)).get? j).bind fun b =>
      ((Json.obj (indexById ys)).get? j).bind fun a => changedItem j b a) = some c → c.id = j := by
    intro j c hc
    obtain ⟨b, -, hc⟩ := Option.bind_eq_some_iff.1 hc
    obtain ⟨a, -, hc⟩ := Option.bind_eq_some_iff.1 hc
    exact id_of_changedItem hc
  rw [hpred, diffItems]
  simp only
  rw [filter_filterMap_id (sortedSet_nodup _) hid hcommon, hx.get?_index.2 ⟨hxm, hxi⟩,
    hy.get?_index.2 ⟨hym, hyi⟩, Option.bind_some, Option.bind_some, changedItem]
  cases fieldChanges ["id"] x y with
  | nil => rfl
  | cons c cs => simp

theorem applyChanges_pyEq {x y : Json} {i : String} (hxm : x ∈ xs) (hym : y ∈ ys)
    (hxi : idOf x = some i) (hyi : idOf y = some i) :
    (applyChanges (diffItems xs ys).changed x).pyEq y = true := by
  rw [applyChanges, changes_eq hx hy hxm hym hxi hyi]
  exact applyFields_pyEq (hx.dicts x hxm) (hy.dicts y hym) (id_pyEq hxi hyi)

theorem idOf_applyChanges {x y : Json} {i : String} (hxm : x ∈ xs) (hym : y ∈ ys)
    (hxi : idOf x = some i) (hyi : idOf y = some i) :
    idOf (applyChanges (diffItems xs ys).changed x) = some i := by
  have hkeep : (applyFields (fieldChanges ["id"] x y) x).get? "id" = x.get? "id" := by
    refine (hx.dicts x hxm).get?_applyFields_of_not_mem ?_ ?_
    · exact fun c hc => field_mem (hx.dicts x hxm) (hy.dicts y hym) hc
    · intro c hc heq
      exact (mem_fieldChanges.1 hc).2.1 (by simp [heq])
  rw [applyChanges, changes_eq hx hy hxm hym hxi hyi, idOf, hkeep, ← hxi, idOf]

theorem not_removed_iff {x : Json} (hxm : x ∈ xs) :
    idOf x ∉ (diffItems xs ys).removed.map idOf ↔ ∃ y ∈ ys, idOf y = idOf x := by
  constructor
  · intro h
    by_contra hnone
    refine h (List.mem_map.2 ⟨x, (mem_removed hx hy).2 ⟨hxm, ?_⟩, rfl⟩)
    exact fun y hym heq => hnone ⟨y, hym, heq⟩
  · intro h hmem
    obtain ⟨y, hym, hyx⟩ := h
    obtain ⟨x', hx', heq⟩ := List.mem_map.1 hmem
    exact ((mem_removed hx hy).1 hx').2 y hym (hyx.trans heq.symm)

/-- **The diff of a section takes it to the other.** -/
theorem diffItems_apply : SameRows ((diffItems xs ys).apply xs) ys := by
  constructor
  · intro row hrow
    obtain hrow | hrow := List.mem_append.1 hrow
    · obtain ⟨x, hxm, rfl⟩ := List.mem_map.1 hrow
      obtain ⟨hxm, hkept⟩ := List.mem_filter.1 hxm
      rw [decide_eq_true_eq] at hkept
      obtain ⟨y, hym, hyx⟩ := (not_removed_iff hx hy hxm).1 hkept
      obtain ⟨i, hxi⟩ := Option.isSome_iff_exists.1 (hx.ids x hxm)
      have hyi : idOf y = some i := hyx.trans hxi
      refine ⟨y, hym, ?_, applyChanges_pyEq hx hy hxm hym hxi hyi⟩
      rw [idOf_applyChanges hx hy hxm hym hxi hyi, hyi]
    · exact ⟨row, ((mem_added hx hy).1 hrow).1, rfl, by simp [Json.pyEq]⟩
  · intro y hym
    by_cases hold : ∃ x ∈ xs, idOf x = idOf y
    · obtain ⟨x, hxm, hxy⟩ := hold
      obtain ⟨i, hyi⟩ := Option.isSome_iff_exists.1 (hy.ids y hym)
      have hxi : idOf x = some i := hxy.trans hyi
      have hkept := (not_removed_iff hx hy hxm).2 ⟨y, hym, hxy.symm⟩
      refine ⟨applyChanges (diffItems xs ys).changed x, ?_, ?_, ?_⟩
      · refine List.mem_append_left _ (List.mem_map_of_mem (List.mem_filter.2 ⟨hxm, ?_⟩))
        simpa using hkept
      · rw [idOf_applyChanges hx hy hxm hym hxi hyi, hyi]
      · rw [pyEq_iff]
        exact (pyEq_iff.1 (applyChanges_pyEq hx hy hxm hym hxi hyi)).symm
    · refine ⟨y, List.mem_append_right _ ((mem_added hx hy).2 ⟨hym, ?_⟩), rfl, by simp [Json.pyEq]⟩
      exact fun x hxm heq => hold ⟨x, hxm, heq⟩

/-- **The diff of a section is empty exactly when the sections are equal.** -/
theorem diffItems_isEmpty : (diffItems xs ys).isEmpty ↔ SameRows xs ys := by
  have hchange : ∀ {x y : Json} {i : String}, x ∈ xs → y ∈ ys → idOf x = some i → idOf y = some i →
      (fieldChanges ["id"] x y = [] ↔ x.pyEq y = true) := fun hxm hym hxi hyi =>
    fieldChanges_eq_nil (hx.dicts _ hxm) (hy.dicts _ hym) (id_pyEq hxi hyi)
  constructor
  · intro h
    obtain ⟨hadded, hremoved, hchanged⟩ := h
    have hequal : ∀ {x y : Json}, x ∈ xs → y ∈ ys → idOf x = idOf y → x.pyEq y = true := by
      intro x y hxm hym hxy
      obtain ⟨i, hxi⟩ := Option.isSome_iff_exists.1 (hx.ids x hxm)
      have hyi : idOf y = some i := hxy.symm.trans hxi
      refine (hchange hxm hym hxi hyi).1 ?_
      rw [← changes_eq hx hy hxm hym hxi hyi, hchanged]
      rfl
    constructor
    · intro x hxm
      have hkept : idOf x ∉ (diffItems xs ys).removed.map idOf := by simp [hremoved]
      obtain ⟨y, hym, hyx⟩ := (not_removed_iff hx hy hxm).1 hkept
      exact ⟨y, hym, hyx, hequal hxm hym hyx.symm⟩
    · intro y hym
      by_cases hold : ∃ x ∈ xs, idOf x = idOf y
      · obtain ⟨x, hxm, hxy⟩ := hold
        refine ⟨x, hxm, hxy, ?_⟩
        rw [pyEq_iff]
        exact (pyEq_iff.1 (hequal hxm hym hxy)).symm
      · have hmem : y ∈ (diffItems xs ys).added :=
          (mem_added hx hy).2 ⟨hym, fun x hxm heq => hold ⟨x, hxm, heq⟩⟩
        simp [hadded] at hmem
  · intro h
    refine ⟨?_, ?_, ?_⟩
    · rw [List.eq_nil_iff_forall_not_mem]
      intro y hmem
      obtain ⟨hym, hnew⟩ := (mem_added hx hy).1 hmem
      obtain ⟨x, hxm, hxy, -⟩ := h.2 y hym
      exact hnew x hxm hxy
    · rw [List.eq_nil_iff_forall_not_mem]
      intro x hmem
      obtain ⟨hxm, hgone⟩ := (mem_removed hx hy).1 hmem
      obtain ⟨y, hym, hyx, -⟩ := h.1 x hxm
      exact hgone y hym hyx
    · rw [List.eq_nil_iff_forall_not_mem]
      intro c hmem
      obtain ⟨i, x, hxm, y, hym, hxi, hyi, hc⟩ := (mem_changed hx hy).1 hmem
      obtain ⟨y', hym', hyx, heq⟩ := h.1 x hxm
      have hsame : y' = y := hy.unique hym' hym (by rw [hyx, hxi, hyi])
      subst hsame
      simp [changedItem, (hchange hxm hym hxi hyi).2 heq] at hc

end Items

/-! ## The diff of two snapshots -/

theorem diffGraphSnapshots_mirror (a b : Json) :
    diffGraphSnapshots b a = (diffGraphSnapshots a b).mirror := by
  simp only [diffGraphSnapshots, GraphSnapshotDiff.mirror, ← diffItems_mirror, diffCoverage,
    CoverageDiff.mirror, ← fieldChanges_mirror]

section Snapshots

variable {fields : String → List String} {a b : Json}

theorem coverageOf_apply (diff : GraphSnapshotDiff) (ha : SnapshotOf fields a)
    (hchanges : ∀ c ∈ diff.coverage.changedFields, c.field ∈ fields "coverage") :
    coverageOf (diff.apply a) = applyFields diff.coverage.changedFields (coverageOf a) := by
  obtain ⟨kvs, hkvs, -⟩ := (ha.coverage.applyFields hchanges).dict
  rw [hkvs, coverageOf, GraphSnapshotDiff.apply, hkvs]
  simp [Json.get?]

theorem diffGraphSnapshots_apply (ha : SnapshotOf fields a) (hb : SnapshotOf fields b) :
    SameSnapshot ((diffGraphSnapshots a b).apply a) b where
  principals := diffItems_apply ha.principals hb.principals
  relationships := diffItems_apply ha.relationships hb.relationships
  conflicts := diffItems_apply ha.conflicts hb.conflicts
  gaps := diffItems_apply ha.gaps hb.gaps
  coverage := by
    rw [coverageOf_apply _ ha fun c hc => field_mem ha.coverage hb.coverage hc]
    exact applyFields_pyEq ha.coverage hb.coverage (by simp)

theorem diffGraphSnapshots_isEmpty (ha : SnapshotOf fields a) (hb : SnapshotOf fields b) :
    (diffGraphSnapshots a b).IsEmpty ↔ SameSnapshot a b := by
  have hcoverage : (diffCoverage (coverageOf a) (coverageOf b)).changedFields = [] ↔
      (coverageOf a).pyEq (coverageOf b) = true :=
    fieldChanges_eq_nil ha.coverage hb.coverage (by simp)
  simp only [GraphSnapshotDiff.IsEmpty, diffGraphSnapshots, hcoverage,
    diffItems_isEmpty ha.principals hb.principals, diffItems_isEmpty ha.relationships hb.relationships,
    diffItems_isEmpty ha.conflicts hb.conflicts, diffItems_isEmpty ha.gaps hb.gaps]
  constructor
  · intro h
    obtain ⟨hprincipals, hrelationships, hconflicts, hgaps, hequal⟩ := h
    exact ⟨hprincipals, hrelationships, hconflicts, hgaps, hequal⟩
  · intro h
    exact ⟨h.principals, h.relationships, h.conflicts, h.gaps, h.coverage⟩

/-- **The diff of two snapshots is a delta.** It takes the first to the second, the diff the other way is
its mirror image, and it is empty exactly when the snapshots are equal. -/
theorem diffGraphSnapshots_delta (ha : SnapshotOf fields a) (hb : SnapshotOf fields b) :
    SameSnapshot ((diffGraphSnapshots a b).apply a) b ∧
      diffGraphSnapshots b a = (diffGraphSnapshots a b).mirror ∧
      ((diffGraphSnapshots a b).IsEmpty ↔ SameSnapshot a b) :=
  ⟨diffGraphSnapshots_apply ha hb, diffGraphSnapshots_mirror a b, diffGraphSnapshots_isEmpty ha hb⟩

/-! A principal that is resolved between two approvals, and a gap that is closed. -/

def approvedGraph (resolved : Json) (gaps : List Json) : Json :=
  .obj [("principals", .arr [.obj [("id", .str "p1"), ("resolved_principal_id", resolved)]]),
    ("gaps", .arr gaps), ("coverage", .obj [("documents_processed", .int 1)])]

def approvedFields (part : String) : List String :=
  if part = "principals" then ["id", "resolved_principal_id"]
  else if part = "coverage" then ["documents_processed"]
  else ["id", "description"]

def openGap : Json := .obj [("id", .str "g1"), ("description", .str "who approves travel?")]

theorem diffGraphSnapshots_delta_resolved :
    SameSnapshot ((diffGraphSnapshots (approvedGraph .null [openGap])
      (approvedGraph (.str "u1") [])).apply (approvedGraph .null [openGap]))
      (approvedGraph (.str "u1") []) := by
  have hshape : ∀ resolved gaps, gaps = [] ∨ gaps = [openGap] →
      SnapshotOf approvedFields (approvedGraph resolved gaps) := by
    intro resolved gaps hgaps
    have hempty : ∀ fields, RowsOf fields [] := fun fields => ⟨by simp, by simp, by simp⟩
    refine ⟨⟨?_, ?_, ?_⟩, hempty _, hempty _, ?_, ⟨⟨_, rfl, by decide⟩, ?_⟩⟩
    · intro row hrow
      have hrow : row = .obj [("id", .str "p1"), ("resolved_principal_id", resolved)] := by
        simpa [items, approvedGraph, Json.get?] using hrow
      subst hrow
      exact ⟨⟨_, rfl, by simp⟩, by simp [dictKeys, approvedFields]⟩
    · simp [items, approvedGraph, Json.get?, idOf]
    · simp [items, approvedGraph, Json.get?]
    · obtain rfl | rfl := hgaps
      · exact hempty _
      · refine ⟨?_, ?_, ?_⟩
        · intro row hrow
          have hrow : row = openGap := by simpa [items, approvedGraph, Json.get?] using hrow
          subst hrow
          exact ⟨⟨_, rfl, by decide⟩, by simp [dictKeys, approvedFields, openGap]⟩
        · simp [items, approvedGraph, Json.get?, idOf, openGap]
        · simp [items, approvedGraph, Json.get?]
    · simp [dictKeys, approvedFields, coverageOf, approvedGraph, Json.get?]
  exact (diffGraphSnapshots_delta (hshape .null [openGap] (.inr rfl))
    (hshape (.str "u1") [] (.inl rfl))).1

end Snapshots

end AuthorityGraph

end PayReality
