import PayReality.Compiler.Disjoint

/-!
# Rule names

The rule of a policy is named after its id: what cannot stand in an identifier becomes an underscore.
The names of two ids are the same exactly when the ids are alike (`AlikeIds`), so a bundle has one rule for
each id, and no rule for two, if and only if no two of its ids are alike (`namesApart_iff`). Ids that are
UUIDs are alike only if they are the same (`eq_of_alikeIds_uuid`).
-/

namespace PayReality

open Rego RegoGenerator

/-! ## Ids that are alike -/

/-- The id with the letter that is put before one that does not begin like an identifier. -/
def prefixedId (id : String) : List Char :=
  match id.toList with
  | [] => ['p', '_']
  | c :: cs => if c.isDigit then 'p' :: '_' :: c :: cs else c :: cs

/-- The same character, or two that are neither a letter nor a digit of ASCII. -/
def sameInName (c d : Char) : Prop := c = d ∨ c.isAlphanum = false ∧ d.isAlphanum = false

/-- Ids that agree character by character, up to those that a name does not show. -/
def AlikeIds (a b : String) : Prop := List.Forall₂ sameInName (prefixedId a) (prefixedId b)

/-- How a name shows a character. -/
def inName (c : Char) : Char := if isSafeIdChar c then c else '_'

theorem inName_of_alphanum {c : Char} (h : c.isAlphanum = true) : inName c = c := by
  have hsafe : isSafeIdChar c = true := by
    simp only [isSafeIdChar, Bool.or_eq_true]
    exact .inl (Bool.or_eq_true _ _ ▸ h)
  rw [inName, if_pos hsafe]

theorem inName_of_not_alphanum {c : Char} (h : c.isAlphanum = false) : inName c = '_' := by
  unfold inName
  split_ifs with hsafe
  · have hc : (c.isAlpha || c.isDigit) = false := h
    simpa [isSafeIdChar, hc] using hsafe
  · rfl

theorem inName_eq_iff {c d : Char} : inName c = inName d ↔ sameInName c d := by
  cases hc : c.isAlphanum <;> cases hd : d.isAlphanum
  · simp [inName_of_not_alphanum, sameInName, hc, hd]
  · rw [inName_of_not_alphanum hc, inName_of_alphanum hd]
    constructor
    · rintro rfl
      cases hd
    · rintro (rfl | ⟨-, h⟩)
      · simp [hc] at hd
      · simp [hd] at h
  · rw [inName_of_alphanum hc, inName_of_not_alphanum hd]
    constructor
    · rintro rfl
      cases hc
    · rintro (rfl | ⟨h, -⟩)
      · simp [hc] at hd
      · simp [hc] at h
  · simp [inName_of_alphanum, sameInName, hc, hd]

theorem isDigit_inName (c : Char) : (inName c).isDigit = c.isDigit := by
  cases hc : c.isAlphanum
  · have hdigit : c.isDigit = false := (Bool.or_eq_false_iff.1 hc).2
    rw [inName_of_not_alphanum hc, hdigit]
    rfl
  · rw [inName_of_alphanum hc]

theorem sanitizePolicyId_eq (id : String) : sanitizePolicyId id = (prefixedId id).map inName := by
  have hmap : (id.toList.map fun c => if isSafeIdChar c then c else '_') = id.toList.map inName := rfl
  simp only [sanitizePolicyId, hmap, prefixedId]
  cases id.toList with
  | nil => rfl
  | cons c cs =>
    simp only [List.map_cons, isDigit_inName]
    split_ifs <;> rfl

/-- The names of two ids are the same exactly when the ids are alike. -/
theorem ruleName_eq_iff (a b : String) : ruleNameForPolicy a = ruleNameForPolicy b ↔ AlikeIds a b := by
  have hnames : ruleNameForPolicy a = ruleNameForPolicy b ↔
      (prefixedId a).map inName = (prefixedId b).map inName := by
    rw [← sanitizePolicyId_eq, ← sanitizePolicyId_eq]
    exact String.ofList_inj.trans (List.append_right_inj _)
  rw [hnames, ← List.forall₂_eq_eq_eq, List.forall₂_map_left_iff, List.forall₂_map_right_iff]
  simp only [inName_eq_iff]
  rfl

/-! ## The names of a bundle -/

/-- One rule for each id of the bundle, under a name that nothing else of the bundle has. -/
structure NamesApart (ps : List RuntimePolicy) : Prop where
  identifiers : ∀ p ∈ ps, isIdentifier (ruleNameForPolicy p.id).toList = true
  distinct : ∀ p ∈ ps, ∀ q ∈ ps, p.id ≠ q.id → ruleNameForPolicy p.id ≠ ruleNameForPolicy q.id
  collected : ∀ p ∈ ps, ∀ r ∈ collectingRules ps, r.head.name ≠ ruleNameForPolicy p.id
  defaults : ∀ p ∈ ps, ruleNameForPolicy p.id ∉ (intendedModule ps).defaults
  bodies : ∀ p ∈ ps, ∀ r ∈ (intendedModule ps).rules, r.head.name = ruleNameForPolicy p.id →
    ∃ q ∈ ps, q.id = p.id ∧ r = policyRule q

/-- The names of the rules that collect those of the policies. -/
def collectingNames : List String :=
  ["allow", "deny", "requires_review", "evaluated_mandates", "review_reason", "deny_reason"]

theorem collecting_name {ps : List RuntimePolicy} {r : Rule} (h : r ∈ collectingRules ps) :
    r.head.name ∈ collectingNames := by
  simp only [collectingRules, List.mem_append] at h
  rcases h with ((((h | h) | h) | h) | h) | h
  · obtain ⟨q, -, rfl⟩ := List.mem_map.1 h
    simp [Head.name, effectRuleName, collectingNames]
  · obtain ⟨q, -, rfl⟩ := List.mem_map.1 h
    simp [Head.name, effectRuleName, collectingNames]
  · obtain ⟨q, -, rfl⟩ := List.mem_map.1 h
    simp [Head.name, effectRuleName, collectingNames]
  · obtain ⟨q, -, rfl⟩ := List.mem_map.1 h
    simp [Head.name, evaluatedRule, collectingNames]
  · obtain ⟨q, -, hq⟩ := List.mem_filterMap.1 h
    unfold reasonRule at hq
    cases he : q.effect <;> simp only [he] at hq
    · cases hq
    · cases hq
      simp [Head.name, collectingNames]
    · cases hq
      simp [Head.name, collectingNames]
  · simp only [fallbackRules, List.mem_cons, List.not_mem_nil, or_false] at h
    rcases h with rfl | rfl <;> simp [Head.name, collectingNames]

theorem ruleName_not_collecting (id : String) : ruleNameForPolicy id ∉ collectingNames := by
  have hnames : ∀ n ∈ collectingNames, n.toList.head? ≠ some 'p' := by decide
  exact fun h => ruleName_ne id (hnames _ h) rfl

theorem namesApart_of_unalike {ps : List RuntimePolicy}
    (h : ∀ p ∈ ps, ∀ q ∈ ps, AlikeIds p.id q.id → p.id = q.id) : NamesApart ps where
  identifiers p _ := ruleName_identifier p.id
  distinct p hp q hq hne hname := hne (h p hp q hq ((ruleName_eq_iff p.id q.id).1 hname))
  collected p _ r hr hname := ruleName_not_collecting p.id (hname ▸ collecting_name hr)
  defaults p _ hmem := by
    have hdefaults : ["allow", "deny", "requires_review"] ⊆ collectingNames := by decide
    exact ruleName_not_collecting p.id (hdefaults hmem)
  bodies p hp r hr hname := by
    rw [intendedModule_eq] at hr
    rcases List.mem_append.1 hr with hr | hr
    · obtain ⟨q, hq, rfl⟩ := List.mem_map.1 hr
      exact ⟨q, hq, h q hq p hp ((ruleName_eq_iff q.id p.id).1 hname), rfl⟩
    · exact absurd (hname ▸ collecting_name hr) (ruleName_not_collecting p.id)

/-- **The rules of a bundle are apart exactly when** no two of its ids are alike. -/
theorem namesApart_iff (ps : List RuntimePolicy) :
    NamesApart ps ↔ ∀ p ∈ ps, ∀ q ∈ ps, AlikeIds p.id q.id → p.id = q.id := by
  constructor
  · intro h p hp q hq halike
    by_contra hne
    exact h.distinct p hp q hq hne ((ruleName_eq_iff p.id q.id).2 halike)
  · exact namesApart_of_unalike

/-! Two policies of a bundle whose ids differ in a hyphen. -/

def hyphenated : RuntimePolicy := { paymentPolicy [] with id := "rp-1" }

def underscored : RuntimePolicy :=
  { paymentPolicy [] with id := "rp_1", scope := ⟨"sales", "vendor_payment", none, none⟩,
                          effect := .deny }

theorem rule_name_shared :
    ∃ b, CompilerV2.compileBundle CompilerV2.genericVocabulary [hyphenated, underscored] "b" 1 0
        = .ok ⟨some b, []⟩ ∧ ¬ NamesApart [hyphenated, underscored] := by
  obtain ⟨b, h⟩ := CompilerV2.exists_bundle CompilerV2.genericVocabulary
    [hyphenated, underscored] (by decide +kernel) (by decide +kernel) ⟨_, rfl⟩ "b" 1 0
  refine ⟨b, h, fun hapart => ?_⟩
  exact hapart.distinct hyphenated (by simp) underscored (by simp) (by decide) (by decide +kernel)

/-! ## UUIDs

The server compiles policies whose ids are the text of UUIDs. -/

def isHexDigit (c : Char) : Bool := c.isDigit || 'a' ≤ c && c ≤ 'f'

/-- `str(uuid)`: lower-case hexadecimal digits in five groups. -/
def isUuidText (id : String) : Bool :=
  id.toList.length = 36 && id.toList.zipIdx.all fun (c, i) =>
    if i ∈ [8, 13, 18, 23] then c = '-' else isHexDigit c

example : isUuidText "9f1c0b7e-0000-4000-8000-0123456789ab" = true := by decide +kernel

theorem isAlphanum_of_isHexDigit {c : Char} (h : isHexDigit c = true) : c.isAlphanum = true := by
  simp only [isHexDigit, Bool.or_eq_true, Bool.and_eq_true, decide_eq_true_eq, Char.le_def] at h
  show (c.isAlpha || c.isDigit) = true
  rcases h with h | ⟨ha, hf⟩
  · simp [h]
  · have hz : 'f'.val ≤ 'z'.val := by decide
    have hlower : c.isLower = true :=
      Bool.and_eq_true_iff.2 ⟨decide_eq_true ha, decide_eq_true (UInt32.le_trans hf hz)⟩
    have halpha : c.isAlpha = true := Bool.or_eq_true_iff.2 (.inr hlower)
    simp [halpha]

theorem getElem_uuid {id : String} (h : isUuidText id = true) {i : ℕ} (hi : i < id.toList.length) :
    if i ∈ [8, 13, 18, 23] then id.toList[i] = '-' else isHexDigit id.toList[i] = true := by
  simp only [isUuidText, Bool.and_eq_true, List.all_eq_true] at h
  have hat := h.2 (id.toList[i], i) (by simp [List.mk_mem_zipIdx_iff_getElem?])
  split_ifs at hat ⊢ with hgroup
  · simpa [hgroup] using hat
  · simpa [hgroup] using hat

/-- Texts of UUIDs that agree up to the characters that a name does not show are the same. -/
theorem eq_of_forall₂_uuid {a b : String} (ha : isUuidText a = true) (hb : isUuidText b = true)
    (h : List.Forall₂ sameInName a.toList b.toList) : a = b := by
  obtain ⟨hlength, hat⟩ := List.forall₂_iff_get.1 h
  refine String.toList_inj.1 (List.ext_getElem hlength fun i hia hib => ?_)
  have hca := getElem_uuid ha hia
  have hcb := getElem_uuid hb hib
  split_ifs at hca hcb with hgroup
  · rw [hca, hcb]
  · rcases hat i hia hib with heq | ⟨hno, -⟩
    · exact heq
    · exact absurd (isAlphanum_of_isHexDigit hca) (by simpa using hno)

theorem uuid_head {id : String} (h : isUuidText id = true) :
    ∃ c cs, id.toList = c :: cs ∧ isHexDigit c = true := by
  have hlength : id.toList.length = 36 := by
    simp only [isUuidText, Bool.and_eq_true, decide_eq_true_eq] at h
    exact h.1
  cases hcs : id.toList with
  | nil => simp [hcs] at hlength
  | cons c cs =>
    have hc := getElem_uuid h (i := 0) (by omega)
    simp only [hcs, List.getElem_cons_zero] at hc
    exact ⟨c, cs, rfl, hc⟩

theorem not_sameInName_p {c : Char} (h : isHexDigit c = true) : ¬ sameInName 'p' c := by
  rintro (rfl | ⟨hp, -⟩)
  · exact absurd h (by decide)
  · exact absurd hp (by decide)

/-- The texts of two UUIDs are alike only if they are the same. -/
theorem eq_of_alikeIds_uuid {a b : String} (ha : isUuidText a = true) (hb : isUuidText b = true)
    (h : AlikeIds a b) : a = b := by
  obtain ⟨c, cs, hac, hc⟩ := uuid_head ha
  obtain ⟨d, ds, hbd, hd⟩ := uuid_head hb
  apply eq_of_forall₂_uuid ha hb
  simp only [AlikeIds, prefixedId, hac, hbd] at h
  rw [hac, hbd]
  cases hcdigit : c.isDigit <;> cases hddigit : d.isDigit <;>
    simp only [hcdigit, hddigit, if_true, if_false, Bool.false_eq_true] at h
  · exact h
  · cases h with
    | cons hcp _ => exact absurd (hcp.imp Eq.symm And.symm) (not_sameInName_p hc)
  · cases h with
    | cons hpd _ => exact absurd hpd (not_sameInName_p hd)
  · cases h with
    | cons _ h => cases h with
      | cons _ h => exact h

/-- The rules of a bundle whose ids are the texts of UUIDs are apart. -/
theorem namesApart_of_uuids {ps : List RuntimePolicy} (h : ∀ p ∈ ps, isUuidText p.id = true) :
    NamesApart ps :=
  namesApart_of_unalike fun p hp q hq halike => eq_of_alikeIds_uuid (h p hp) (h q hq) halike

end PayReality
