import PayReality.Lib.Like
import PayReality.Lifecycle.SafetyChecks

/-!
# Broken inheritance

What `_check_broken_inheritance` takes for a known delegator: the principal of an active policy, the
candidate's own among them; the id that the text is; or, where it is no id, a principal whose name matches
the text as an `ILIKE` pattern. A text that ends in a backslash is no pattern, and the database may raise.

**Main result** `brokenInheritance_exact`: when the report of a candidate is exact, for one database and for
all of them.
-/

namespace PayReality

namespace SafetyChecks

section Exact

variable (P : Platform) (refuses : String → String → Bool) (fold : Char → Char)

/-- How the database disregards case: letter by letter, in the text and in the pattern. `refuses` says
where it raises. -/
structure Folds : Prop where
  ilike : ∀ s pattern, P.ilike s pattern = Like.like (s.toList.map fold) (pattern.toList.map fold)
  refuses : ∀ s pattern, refuses s pattern = Like.refuses (pattern.toList.map fold) (s.toList.map fold)
  idem : ∀ c, fold (fold c) = fold c
  percent : fold '%' = '%'
  special : ∀ c, Like.isSpecial (fold c) = Like.isSpecial c

variable (db : Db) (candidate : RuntimePolicy) (o : Option Uuid) (others : List RuntimePolicyRecord)
  (d : String)

/-- The delegator is the principal of another active policy. -/
def ScopedByOther : Prop :=
  normalize P d ∈ knownPrincipalNames P (others.map RuntimePolicyRecord.content)

/-- The delegator is the principal of the candidate itself. -/
def ScopedByItself : Prop := normalize P d ∈ knownPrincipalNames P [candidate]

/-- A principal of the organization has the trimmed text as its name, case apart, or as its id. -/
def KnownPrincipal : Prop :=
  (∃ p ∈ db.principals, p.organizationId = o ∧
    p.name.toList.map fold = (strip d).toList.map fold) ∨
  ∃ id, P.uuid (strip d) = some id ∧ (dbPrincipal db o id).isSome = true

def ReportsBroken : Prop :=
  ∃ v ∈ violations P db candidate o others, v.check = .brokenInheritance

/-- The delegator is looked up as a pattern, and the database refuses it at a principal. -/
def LookupRaises : Prop :=
  ¬ (ScopedByItself P candidate d ∨ ScopedByOther P others d) ∧ P.uuid d = none ∧
    ∃ p ∈ db.principals, p.organizationId = o ∧ refuses p.name (strip d) = true

/-- The check returns, and reports the candidates whose delegator is known to no other policy and no
principal. -/
def InheritanceExact : Prop :=
  ¬ LookupRaises P refuses db candidate o others d ∧
    (ReportsBroken P db candidate o others ↔
      ¬ (ScopedByOther P others d ∨ KnownPrincipal P fold db o d))

/-- Nothing but a known principal clears the delegator: neither the candidate itself, nor a name that
only matches it; and the text finds the principal that it names, and is refused at none. -/
structure NoClash : Prop where
  itself : ScopedByItself P candidate d → KnownPrincipal P fold db o d
  byId : ¬ ScopedByItself P candidate d → ∀ id, P.uuid d = some id →
    ((dbPrincipal db o id).isSome = true ↔ KnownPrincipal P fold db o d)
  byName : ¬ ScopedByItself P candidate d → P.uuid d = none →
    (∀ p ∈ db.principals, p.organizationId = o → refuses p.name (strip d) = false) ∧
    ((∃ p ∈ db.principals, P.ilike p.name (strip d) = true ∧ p.organizationId = o) ↔
      KnownPrincipal P fold db o d)

/-- A text that is not the candidate's own principal, has no special character, and is no id. -/
structure PlainDelegator : Prop where
  other : ¬ ScopedByItself P candidate d
  plain : ∀ c ∈ (strip d).toList, Like.isSpecial c = false
  untrimmed : P.uuid d = none
  trimmed : P.uuid (strip d) = none

end Exact

/-! ## What the check looks up -/

section Lookup

variable {P : Platform} {refuses : String → String → Bool} {fold : Char → Char} {db : Db}
  {candidate : RuntimePolicy} {o : Option Uuid} {others : List RuntimePolicyRecord} {d : String}

/-- The other checks report under other names. -/
theorem reportsBroken_iff : ReportsBroken P db candidate o others ↔
    dbBroken P db candidate o (candidate :: others.map RuntimePolicyRecord.content) ≠ [] := by
  have hbroken : ∀ v ∈ dbBroken P db candidate o
      (candidate :: others.map RuntimePolicyRecord.content), v.check = .brokenInheritance := by
    intro v hv
    unfold dbBroken at hv
    split at hv
    · simp at hv
    · next d _ =>
      cases hfound : dbDelegator P db o d <;> simp [hfound, brokenInheritance] at hv
      rw [hv]
  have hvalid : ∀ v ∈ checkInvalidThresholds candidate, v.check ≠ .brokenInheritance := by
    intro v hv
    obtain ⟨e, -, rfl⟩ := List.mem_map.1 hv
    dsimp only
    split <;> simp
  have hduplicate : ∀ v ∈ checkDuplicateAuthority P candidate (keyed others),
      v.check ≠ .brokenInheritance := by
    intro v hv
    obtain ⟨e, -, rfl⟩ := List.mem_map.1 hv
    simp
  have hmissing : ∀ v ∈ dbMissing P db candidate o, v.check ≠ .brokenInheritance := by
    intro v hv
    unfold dbMissing at hv
    split at hv
    · simp at hv
    · next id _ =>
      cases hfound : dbPrincipal db o id <;> simp [hfound, missingPrincipal] at hv
      simp [hv]
  have hcircular : ∀ ps, ∀ v ∈ checkCircularDelegation P ps, v.check ≠ .brokenInheritance := by
    intro ps v hv
    obtain ⟨e, -, rfl⟩ := List.mem_map.1 hv
    simp
  constructor
  · intro h
    obtain ⟨v, hv, hcheck⟩ := h
    simp only [violations, assemble, List.mem_append] at hv
    obtain (((hv | hv) | hv) | hv) | hv := hv
    · exact absurd hcheck (hvalid v hv)
    · exact absurd hcheck (hduplicate v hv)
    · exact List.ne_nil_of_mem hv
    · exact absurd hcheck (hmissing v hv)
    · exact absurd hcheck (hcircular _ v hv)
  · intro h
    obtain ⟨v, hv⟩ := List.exists_mem_of_ne_nil _ h
    refine ⟨v, ?_, hbroken v hv⟩
    simp only [violations, assemble, List.mem_append]
    exact .inl (.inl (.inr hv))

theorem known_cons : normalize P d ∈
      knownPrincipalNames P (candidate :: others.map RuntimePolicyRecord.content) ↔
    ScopedByItself P candidate d ∨ ScopedByOther P others d := by
  simp only [ScopedByItself, ScopedByOther, knownPrincipalNames, List.filter_cons, List.filter_nil]
  split <;> simp

theorem dbBroken_ne_nil (hd : candidate.constraints.delegatedBy = some d) (hne : d ≠ "") :
    dbBroken P db candidate o (candidate :: others.map RuntimePolicyRecord.content) ≠ [] ↔
      ¬ (ScopedByItself P candidate d ∨ ScopedByOther P others d) ∧
        (dbDelegator P db o d).isSome = false := by
  rw [← known_cons, dbBroken, unknownDelegator, hd]
  by_cases hknown : normalize P d ∈
      knownPrincipalNames P (candidate :: others.map RuntimePolicyRecord.content)
  · simp [Option.filter, hne, hknown]
  · cases hfound : dbDelegator P db o d <;> simp [Option.filter, hne, hknown, hfound, brokenInheritance]

/-- The principal that is looked up. -/
theorem dbDelegator_isSome : (dbDelegator P db o d).isSome = true ↔
    (∃ id, P.uuid d = some id ∧ (dbPrincipal db o id).isSome = true) ∨
    P.uuid d = none ∧ ∃ p ∈ db.principals, P.ilike p.name (strip d) = true ∧ p.organizationId = o := by
  unfold dbDelegator
  cases hid : P.uuid d with
  | some id => simp
  | none => simp

theorem reportsBroken_delegator (hd : candidate.constraints.delegatedBy = some d) (hne : d ≠ "") :
    ReportsBroken P db candidate o others ↔
      ¬ (ScopedByItself P candidate d ∨ ScopedByOther P others d) ∧
        (dbDelegator P db o d).isSome = false := by
  rw [reportsBroken_iff, dbBroken_ne_nil hd hne]

/-- **The report is exact for a database** when another policy knows the delegator, or nothing clashes. -/
theorem inheritanceExact_iff (hd : candidate.constraints.delegatedBy = some d) (hne : d ≠ "") :
    InheritanceExact P refuses fold db candidate o others d ↔
      ScopedByOther P others d ∨ NoClash P refuses fold db candidate o d := by
  rw [InheritanceExact, reportsBroken_delegator hd hne]
  by_cases hother : ScopedByOther P others d
  · simp [LookupRaises, hother]
  · have hfound : (dbDelegator P db o d).isSome = true ↔ _ := dbDelegator_isSome
    simp only [LookupRaises, hother, false_or, or_false]
    constructor
    · rintro ⟨hreturns, hexact⟩
      refine ⟨?_, ?_, ?_⟩
      · intro hself
        by_contra hunknown
        exact (hexact.2 hunknown).1 hself
      · intro hself id hid
        simp [hid] at hfound
        rw [← hfound]
        cases hsome : (dbDelegator P db o d).isSome <;> simp [hself, hsome] at hexact ⊢
        · exact hexact
        · exact hexact
      · intro hself hid
        refine ⟨fun p hp ho => ?_, ?_⟩
        · by_contra hrefuses
          exact hreturns ⟨hself, hid, p, hp, ho, by simpa using hrefuses⟩
        simp only [hid, reduceCtorEq, false_and, exists_false, true_and, false_or] at hfound
        rw [← hfound]
        cases hsome : (dbDelegator P db o d).isSome <;> simp [hself, hsome] at hexact ⊢
        · exact hexact
        · exact hexact
    · intro hclash
      by_cases hself : ScopedByItself P candidate d
      · simp [hself, hclash.itself hself]
      · refine ⟨?_, ?_⟩
        · rintro ⟨-, hid, p, hp, ho, hrefuses⟩
          simp [(hclash.byName hself hid).1 p hp ho] at hrefuses
        have hsame : (dbDelegator P db o d).isSome = true ↔ KnownPrincipal P fold db o d := by
          rw [hfound]
          cases hid : P.uuid d with
          | some id => simpa using hclash.byId hself id hid
          | none => simpa using (hclash.byName hself hid).2
        rw [← hsame]
        simp [hself]

end Lookup

/-! ## Which delegators are always reported exactly -/

section Plain

variable {P : Platform} {refuses : String → String → Bool} {fold : Char → Char}
  (hfold : Folds P refuses fold) {candidate : RuntimePolicy} {d : String}

include hfold

theorem ilike_plain {name pattern : String} (h : ∀ c ∈ pattern.toList, Like.isSpecial c = false) :
    P.ilike name pattern = true ↔ name.toList.map fold = pattern.toList.map fold := by
  rw [hfold.ilike]
  refine Like.like_plain fun c hc => ?_
  obtain ⟨b, hb, rfl⟩ := List.mem_map.1 hc
  rw [hfold.special, h b hb]

theorem refuses_plain {name pattern : String} (h : ∀ c ∈ pattern.toList, Like.isSpecial c = false) :
    refuses name pattern = false := by
  rw [hfold.refuses]
  refine Like.refuses_plain (fun c hc => ?_) _
  obtain ⟨b, hb, rfl⟩ := List.mem_map.1 hc
  rw [hfold.special, h b hb]

theorem noClash_of_plain (h : PlainDelegator P candidate d) (db : Db) (o : Option Uuid) :
    NoClash P refuses fold db candidate o d where
  itself hself := absurd hself h.other
  byId _ id hid := by simp [h.untrimmed] at hid
  byName _ _ := by
    refine ⟨fun p _ _ => refuses_plain hfold h.plain, ?_⟩
    simp only [KnownPrincipal, h.trimmed, reduceCtorEq, false_and, exists_false, or_false,
      ilike_plain hfold h.plain]
    simp only [and_comm]

/-- A database with one principal, and nothing else. -/
def withPrincipal (id : Uuid) (name : String) : Db :=
  { principals := [{ id, name, organizationId := none }] }

omit hfold in
theorem known_withPrincipal {id : Uuid} {name : String} :
    KnownPrincipal P fold (withPrincipal id name) none d ↔
      name.toList.map fold = (strip d).toList.map fold ∨ P.uuid (strip d) = some id := by
  have hget : ∀ id', (dbPrincipal (withPrincipal id name) none id').isSome = true ↔ id' = id := by
    intro id'
    by_cases hid : id = id'
    · simp [dbPrincipal, Db.principal, withPrincipal, hid]
    · have hid' : ¬ id' = id := fun h => hid h.symm
      simp [dbPrincipal, Db.principal, withPrincipal, hid, hid']
  have hname : (∃ p ∈ (withPrincipal id name).principals, p.organizationId = none ∧
      p.name.toList.map fold = (strip d).toList.map fold) ↔
      name.toList.map fold = (strip d).toList.map fold := by
    simp [withPrincipal]
  simp only [KnownPrincipal, hname, hget, exists_eq_right]

/-- A pattern with a special character clears another name, or does not clear its own. -/
theorem clash_of_special (hspecial : ∃ c ∈ (strip d).toList, Like.isSpecial c = true)
    (hself : ¬ ScopedByItself P candidate d) (hid : P.uuid d = none) :
    ∃ id name, ¬ NoClash P refuses fold (withPrincipal id name) candidate none d := by
  obtain ⟨c, hc, hspecial⟩ := hspecial
  have hfolded : ∃ b ∈ (strip d).toList.map fold, Like.isSpecial b = true :=
    ⟨fold c, List.mem_map_of_mem hc, by rw [hfold.special, hspecial]⟩
  obtain ⟨id, hother⟩ : ∃ id, P.uuid (strip d) ≠ some id := by
    cases P.uuid (strip d) with
    | none => exact ⟨0, by simp⟩
    | some id => exact ⟨id + 1, by simp⟩
  obtain ⟨s, hne, hchars, hlike⟩ | hnone := Like.like_special hfolded
  · have hfixed : s.map fold = s := by
      have hfix : ∀ b ∈ s, fold b = b := by
        intro b hb
        obtain rfl | hmem := hchars b hb
        · exact hfold.percent
        · obtain ⟨a, -, rfl⟩ := List.mem_map.1 hmem
          exact hfold.idem a
      exact (List.map_congr_left hfix).trans s.map_id
    refine ⟨id, String.ofList s, fun hclash => ?_⟩
    have hmatch : P.ilike (String.ofList s) (strip d) = true := by
      rw [hfold.ilike, String.toList_ofList, hfixed, hlike]
    have hknown := (hclash.byName hself hid).2.1 ⟨_, List.mem_singleton_self _, hmatch, rfl⟩
    rw [known_withPrincipal, String.toList_ofList, hfixed] at hknown
    obtain hname | hname := hknown
    · exact hne hname
    · exact hother hname
  · refine ⟨id, strip d, fun hclash => ?_⟩
    obtain ⟨p, hp, hmatch, -⟩ := (hclash.byName hself hid).2.2 (known_withPrincipal.2 (.inl rfl))
    rw [hfold.ilike, hnone] at hmatch
    simp at hmatch

/-- **A delegator is always reported exactly** when its text is plain, and no other is. -/
theorem plain_of_noClash (h : ∀ db o, db.records = [] → NoClash P refuses fold db candidate o d) :
    PlainDelegator P candidate d := by
  have hself : ¬ ScopedByItself P candidate d := by
    intro hself
    have := (h {} none rfl).itself hself
    simp [KnownPrincipal, dbPrincipal, Db.principal] at this
  have hid : P.uuid d = none := by
    cases hid : P.uuid d with
    | none => rfl
    | some id =>
      have hclash := (h (withPrincipal (id + 1) (strip d)) none rfl).byId hself id hid
      have hfound := hclash.2 (known_withPrincipal.2 (.inl rfl))
      simp [dbPrincipal, Db.principal, withPrincipal] at hfound
  have hplain : ∀ c ∈ (strip d).toList, Like.isSpecial c = false := by
    by_contra hspecial
    push Not at hspecial
    obtain ⟨c, hc, hspecial⟩ := hspecial
    obtain ⟨id, name, hclash⟩ := clash_of_special hfold ⟨c, hc, by simpa using hspecial⟩ hself hid
    exact hclash (h _ none rfl)
  refine ⟨hself, hplain, hid, ?_⟩
  cases htrimmed : P.uuid (strip d) with
  | none => rfl
  | some id =>
    have hclash := (h (withPrincipal id (strip d ++ "x")) none rfl).byName hself hid
    obtain ⟨p, hp, hmatch, -⟩ := hclash.2.2 (known_withPrincipal.2 (.inr htrimmed))
    have hp : p.name = strip d ++ "x" := by simp [List.mem_singleton.1 hp]
    rw [hp, ilike_plain hfold hplain] at hmatch
    have := congrArg List.length hmatch
    simp at this

end Plain

/-- **When the report of a broken inheritance is exact.** For one database: another active policy knows the
delegator, or nothing clashes. For every database: the text of the delegator is plain. -/
theorem brokenInheritance_exact {P : Platform} {refuses : String → String → Bool} {fold : Char → Char}
    (hfold : Folds P refuses fold) {candidate : RuntimePolicy} {d : String}
    (hd : candidate.constraints.delegatedBy = some d) (hne : d ≠ "") :
    (∀ db policyKey o, InheritanceExact P refuses fold db candidate o (db.otherActive policyKey o) d ↔
      ScopedByOther P (db.otherActive policyKey o) d ∨ NoClash P refuses fold db candidate o d) ∧
    ((∀ db policyKey o,
        InheritanceExact P refuses fold db candidate o (db.otherActive policyKey o) d) ↔
      PlainDelegator P candidate d) := by
  have hone : ∀ (db : Db) (policyKey : Uuid) (o : Option Uuid),
      InheritanceExact P refuses fold db candidate o (db.otherActive policyKey o) d ↔
        ScopedByOther P (db.otherActive policyKey o) d ∨ NoClash P refuses fold db candidate o d :=
    fun db policyKey o => inheritanceExact_iff hd hne
  refine ⟨hone, ?_⟩
  constructor
  · intro h
    refine plain_of_noClash hfold fun db o hempty => ?_
    obtain hother | hclash := (hone db 0 o).1 (h db 0 o)
    · simp [ScopedByOther, knownPrincipalNames, Db.otherActive, Db.activeRecords, hempty] at hother
    · exact hclash
  · intro h db policyKey o
    exact (hone db policyKey o).2 (.inr (noClash_of_plain hfold h db o))

/-! A delegator that is a pattern, in an organization with one principal. -/

def letterCases : List (Char × Char) :=
  "ABCDEFGHIJKLMNOPQRSTUVWXYZ".toList.zip "abcdefghijklmnopqrstuvwxyz".toList

def lowerLetter (c : Char) : Char := ((letterCases.find? fun e => e.1 = c).map Prod.snd).getD c

/-- A database that disregards the case of ASCII letters. -/
def sqlPlatform : Platform where
  uuid _ := none
  uuidText := toString
  uuidHex := toString
  isoformat := toString
  lower s := String.ofList (s.toList.map lowerLetter)
  ilike s pattern := Like.like (s.toList.map lowerLetter) (pattern.toList.map lowerLetter)

def sqlRefuses (s pattern : String) : Bool :=
  Like.refuses (pattern.toList.map lowerLetter) (s.toList.map lowerLetter)

theorem lowerLetter_cases (c : Char) :
    lowerLetter c = c ∨ ∃ e ∈ letterCases, e.1 = c ∧ lowerLetter c = e.2 := by
  unfold lowerLetter
  cases hfound : letterCases.find? fun e => e.1 = c with
  | none => exact .inl rfl
  | some e =>
    exact .inr ⟨e, List.mem_of_find?_eq_some hfound, by simpa using List.find?_some hfound, rfl⟩

theorem sqlPlatform_folds : Folds sqlPlatform sqlRefuses lowerLetter where
  ilike _ _ := rfl
  refuses _ _ := rfl
  idem c := by
    have hletters : ∀ e ∈ letterCases, lowerLetter e.2 = e.2 := by decide
    obtain h | ⟨e, he, -, h⟩ := lowerLetter_cases c
    · rw [h, h]
    · rw [h, hletters e he]
  percent := by decide
  special c := by
    have hletters : ∀ e ∈ letterCases, Like.isSpecial e.2 = Like.isSpecial e.1 := by decide
    obtain h | ⟨e, he, hc, h⟩ := lowerLetter_cases c
    · rw [h]
    · rw [h, hletters e he, hc]

def delegatedFrom (delegatedBy : String) : RuntimePolicy where
  id := "rp-1"
  name := "Travel"
  version := 1
  status := .compiled
  scope := { principal := "clerk", action := "travel", agent := none, resource := none }
  conditions := []
  effect := .allow
  constraints := { delegatedBy := some delegatedBy }

theorem brokenInheritance_exact_treasurer :
    InheritanceExact sqlPlatform sqlRefuses lowerLetter (withPrincipal 1 "Treasurer")
      (delegatedFrom "treasurer ") none ((withPrincipal 1 "Treasurer").otherActive 0 none) "treasurer " := by
  have hplain : (strip "treasurer ").toList.all (fun c => !Like.isSpecial c) = true := by decide
  refine (@brokenInheritance_exact _ _ _ sqlPlatform_folds (delegatedFrom "treasurer ") _ rfl
    (by decide)).2.2 ⟨by unfold ScopedByItself; decide, ?_, rfl, rfl⟩ _ 0 none
  intro c hc
  simpa using List.all_eq_true.1 hplain c hc

/-- `%` names nobody, and every principal clears it. -/
theorem brokenInheritance_wildcard : ∃ (db : Db) (candidate : RuntimePolicy) (d : String),
    candidate.constraints.delegatedBy = some d ∧ d ≠ "" ∧
      ¬ InheritanceExact sqlPlatform sqlRefuses lowerLetter db candidate none (db.otherActive 0 none)
        d := by
  refine ⟨withPrincipal 1 "Treasurer", delegatedFrom "%", "%", rfl, by decide, ?_⟩
  rw [inheritanceExact_iff rfl (by decide)]
  intro h
  obtain hother | hclash := h
  · revert hother
    simp [ScopedByOther, knownPrincipalNames, Db.otherActive, Db.activeRecords, withPrincipal]
  · have hself : ¬ ScopedByItself sqlPlatform (delegatedFrom "%") "%" := by
      unfold ScopedByItself
      decide
    have hmatch : sqlPlatform.ilike "Treasurer" (strip "%") = true := by decide
    have hknown := (hclash.byName hself rfl).2.1 ⟨_, List.mem_singleton_self _, hmatch, rfl⟩
    rw [known_withPrincipal] at hknown
    revert hknown
    decide

end SafetyChecks

end PayReality
