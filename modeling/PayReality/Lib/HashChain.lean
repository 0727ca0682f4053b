import Mathlib.Data.List.Induction
import Mathlib.Data.List.Nodup
import Mathlib.Data.Set.Function

/-!
# Chains of hashes

An entry may carry the hash of the entry before it, or be silent about it. `LinksFrom b l` is the
check that a verifier makes: every entry that is not silent carries the hash of the one before it,
and the first one carries `b`.

With a hash that is injective on the entries at hand, and a start that is no hash,

* `LinksFrom.nodup`: an entry that is not silent occurs once, and
* `LinksFrom.infix_of_subset`: a chain made of entries of another chain is a piece of it.

So whoever can only rearrange the entries of a chain can only cut it off
(`LinksFrom.prefix_of_subset`). `linksFrom_filter` says when a selection from a chain is still a
chain.
-/

/-- The hash of an entry, and the hash that it carries. -/
structure HashLinks (α β : Type*) where
  hash : α → β
  prev : α → Option β

namespace HashLinks

variable {α β : Type*} (L : HashLinks α β)

/-- The entry is silent, or carries `b`. -/
def Accepts (b : β) (x : α) : Prop := ∀ c, L.prev x = some c → c = b

/-- What the entry after a list has to carry, if the first one has to carry `b`. -/
def tip (b : β) (l : List α) : β :=
  match l.getLast? with
  | some x => L.hash x
  | none => b

def LinksFrom : β → List α → Prop
  | _, [] => True
  | b, x :: l => L.Accepts b x ∧ LinksFrom (L.hash x) l

/-- The entry is not silent. -/
def Carries (x : α) : Prop := ∃ c, L.prev x = some c

variable {L} {b c : β} {x y : α} {l r t : List α}

/-! ## Lists and their tips -/

@[simp] theorem tip_nil : L.tip b [] = b := rfl

@[simp] theorem tip_concat : L.tip b (l ++ [x]) = L.hash x := by
  simp [tip]

@[simp] theorem tip_cons : L.tip b (x :: l) = L.tip (L.hash x) l := by
  unfold tip
  rw [List.getLast?_cons]
  cases l.getLast? <;> rfl

@[simp] theorem tip_append : L.tip b (l ++ r) = L.tip (L.tip b l) r := by
  induction l generalizing b with
  | nil => rfl
  | cons x l ih => rw [List.cons_append, tip_cons, ih, tip_cons]

theorem tip_of_ne_nil (h : l ≠ []) : L.tip b l = L.tip c l := by
  cases l with
  | nil => exact absurd rfl h
  | cons x l => rw [tip_cons, tip_cons]

theorem linksFrom_append :
    L.LinksFrom b (l ++ r) ↔ L.LinksFrom b l ∧ L.LinksFrom (L.tip b l) r := by
  induction l generalizing b with
  | nil => simp [LinksFrom]
  | cons x l ih => rw [List.cons_append, LinksFrom, LinksFrom, ih, tip_cons, and_assoc]

theorem linksFrom_singleton : L.LinksFrom b [x] ↔ L.Accepts b x := by
  simp [LinksFrom]

theorem linksFrom_concat :
    L.LinksFrom b (l ++ [x]) ↔ L.LinksFrom b l ∧ L.Accepts (L.tip b l) x := by
  rw [linksFrom_append, linksFrom_singleton]

theorem LinksFrom.of_prefix (h : L.LinksFrom b r) (hpre : l <+: r) : L.LinksFrom b l := by
  obtain ⟨t, rfl⟩ := hpre
  exact (linksFrom_append.1 h).1

/-- The links of things that have an entry each. -/
def comap {γ : Type*} (L : HashLinks α β) (f : γ → α) : HashLinks γ β where
  hash z := L.hash (f z)
  prev z := L.prev (f z)

theorem linksFrom_comap {γ : Type*} {f : γ → α} {t : List γ} :
    (L.comap f).LinksFrom b t ↔ L.LinksFrom b (t.map f) := by
  induction t generalizing b with
  | nil => exact Iff.rfl
  | cons z t ih => rw [List.map_cons, LinksFrom, LinksFrom, ih]; exact Iff.rfl

/-- An entry that is not silent accepts one hash. -/
theorem Accepts.unique (hx : L.Carries x) (hb : L.Accepts b x) (hc : L.Accepts c x) : b = c := by
  obtain ⟨d, hd⟩ := hx
  rw [← hb d hd, ← hc d hd]

/-! ## No entry comes twice -/

/-- The hash tells the entries of `S` apart, and from the start of a chain. -/
structure Separates (L : HashLinks α β) (start : β) (S : Set α) : Prop where
  injOn : S.InjOn L.hash
  ne_start : ∀ a ∈ S, L.hash a ≠ start

theorem Separates.mono {S T : Set α} (h : L.Separates b T) (hST : S ⊆ T) : L.Separates b S :=
  ⟨h.injOn.mono hST, fun a ha => h.ne_start a (hST ha)⟩

variable {S : Set α}

/-- Equal tips have equal last entries. -/
theorem Separates.eq_of_tip (hS : L.Separates b S) (hx : ∀ a ∈ l, a ∈ S) (hy : ∀ a ∈ r, a ∈ S)
    (h : L.tip b l = L.tip b r) : l.getLast? = r.getLast? := by
  rcases List.eq_nil_or_concat' l with rfl | ⟨l, x, rfl⟩
  · rcases List.eq_nil_or_concat' r with rfl | ⟨r, y, rfl⟩
    · rfl
    · rw [tip_nil, tip_concat] at h
      exact absurd h.symm (hS.ne_start y (hy y (by simp)))
  · rcases List.eq_nil_or_concat' r with rfl | ⟨r, y, rfl⟩
    · rw [tip_nil, tip_concat] at h
      exact absurd h (hS.ne_start x (hx x (by simp)))
    · rw [tip_concat, tip_concat] at h
      rw [List.getLast?_concat, List.getLast?_concat,
        hS.injOn (hx x (by simp)) (hy y (by simp)) h]

/-- An entry does not come again behind entries that are not silent. Going back from both places
at once, the entries before them are equal too, until one place is the start of the chain. -/
theorem LinksFrom.false_of_repeat (hS : L.Separates b S) (hmem : ∀ a ∈ l ++ x :: r, a ∈ S)
    (h : L.LinksFrom b (l ++ x :: (r ++ [x]))) (hcarry : ∀ y ∈ r ++ [x], L.Carries y) :
    False := by
  induction l using List.reverseRecOn generalizing x r with
  | nil =>
    rw [List.nil_append, LinksFrom, linksFrom_concat] at h
    have htip := Accepts.unique (hcarry x (by simp)) h.1 h.2.2
    rw [← tip_cons (b := b), ← tip_nil (L := L) (b := b)] at htip
    have := hS.eq_of_tip (by simp) (fun a ha => hmem a (by simpa using ha)) htip
    rw [List.getLast?_cons] at this
    cases this
  | append_singleton l w ih =>
    rw [linksFrom_append, tip_concat, LinksFrom] at h
    obtain ⟨hw, hx, hlater⟩ := h
    obtain ⟨hys, hx'⟩ := linksFrom_concat.1 hlater
    -- the entry before the first `x` is the entry before the second one
    have heq : L.hash w = L.tip (L.hash x) r := Accepts.unique (hcarry x (by simp)) hx hx'
    rcases List.eq_nil_or_concat' r with rfl | ⟨r, v, rfl⟩
    · have hwx : w = x := hS.injOn (hmem w (by simp)) (hmem x (by simp)) heq
      subst hwx
      refine ih (x := w) (r := []) (fun a ha => hmem a (List.mem_append_left _ ha)) ?_ hcarry
      rw [linksFrom_append, linksFrom_singleton] at hw
      exact linksFrom_append.2 ⟨hw.1, hw.2, hx, trivial⟩
    · have hwv : w = v := by
        rw [tip_concat] at heq
        exact hS.injOn (hmem w (by simp)) (hmem v (by simp)) heq
      subst hwv
      refine ih (x := w) (r := x :: r) (fun a ha => hmem a ?_) ?_ fun y hy => ?_
      · have : l ++ w :: x :: r <+: l ++ [w] ++ x :: (r ++ [w]) := ⟨[w], by simp⟩
        exact this.subset ha
      · rw [linksFrom_append, linksFrom_singleton] at hw
        exact linksFrom_append.2 ⟨hw.1, hw.2, hx, hys⟩
      · rcases List.mem_append.1 hy with hy | hy
        · rcases List.mem_cons.1 hy with rfl | hy
          · exact hcarry y (by simp)
          · exact hcarry y (by simp [hy])
        · exact hcarry y (List.mem_append_left _ (List.mem_append_right _ hy))

/-- **No entry comes twice** among the ones at the end of a chain that are not silent. -/
theorem LinksFrom.nodup (hS : L.Separates b S) (hmem : ∀ a ∈ l ++ r, a ∈ S)
    (h : L.LinksFrom b (l ++ r)) (hcarry : ∀ y ∈ r, L.Carries y) : r.Nodup := by
  induction r using List.reverseRecOn with
  | nil => exact List.nodup_nil
  | append_singleton r y ih =>
    rw [← List.append_assoc] at h hmem
    have hys := ih (fun a ha => hmem a (List.mem_append_left _ ha))
      (h.of_prefix (List.prefix_append _ _)) fun z hz => hcarry z (List.mem_append_left _ hz)
    refine List.nodup_append.2 ⟨hys, List.nodup_singleton y, fun a ha b hb => ?_⟩
    rintro rfl
    obtain rfl := List.mem_singleton.1 hb
    obtain ⟨t, u, rfl⟩ := List.append_of_mem ha
    refine false_of_repeat (l := l ++ t) (x := a) (r := u) hS (fun b hb => hmem b ?_) ?_
      fun b hb => hcarry b ?_
    · rw [List.append_assoc] at hb
      exact List.mem_append_left _ hb
    · simpa using h
    · simp_all

/-! ## Pieces of a chain -/

/-- **Only pieces of a chain are chains**: a chain made of entries of a chain, in which no entry is
silent, is a piece of it, and it starts with the hash that the piece follows. -/
theorem LinksFrom.infix_of_subset (hS : L.Separates b {a | a ∈ l}) (hx : L.LinksFrom b l)
    (hcarry : ∀ x ∈ l, L.Carries x) (hy : L.LinksFrom c r) (hsub : r ⊆ l) (hne : r ≠ []) :
    ∃ pre post, l = pre ++ (r ++ post) ∧ L.tip b pre = c := by
  have hnodup : l.Nodup := LinksFrom.nodup (l := []) hS (fun a ha => ha) hx hcarry
  induction r generalizing c with
  | nil => exact absurd rfl hne
  | cons y r ih =>
    have hmem : y ∈ l := hsub List.mem_cons_self
    obtain ⟨pre, post, hsplit⟩ := List.append_of_mem hmem
    have hpre := hx
    rw [hsplit, linksFrom_append, LinksFrom] at hpre
    have htip : L.tip b pre = c := Accepts.unique (hcarry y hmem) hpre.2.1 hy.1
    by_cases hys : r = []
    · subst hys
      exact ⟨pre, post, hsplit, htip⟩
    · obtain ⟨pre', post', hsplit', htip'⟩ :=
        ih hy.2 (fun a ha => hsub (List.mem_cons_of_mem _ ha)) hys
      -- what `r` follows ends in `y`
      rw [← tip_concat (b := b) (x := y) (l := pre)] at htip'
      have hpre' : pre ++ [y] ⊆ l := by
        have : pre ++ [y] <+: l := ⟨post, by simp [hsplit]⟩
        exact this.subset
      have hlast := hS.eq_of_tip (l := pre') (r := pre ++ [y])
        (fun a ha => by simp [hsplit', ha]) (fun a ha => hpre' ha) htip'
      rw [List.getLast?_concat] at hlast
      obtain ⟨pre'', rfl⟩ := List.getLast?_eq_some_iff.1 hlast
      have heq : pre ++ y :: post = pre'' ++ y :: (r ++ post') := by
        rw [← hsplit, hsplit']
        simp
      -- the entry occurs once, so it splits the chain in one way
      have hy' : y ∉ pre ∧ y ∉ post := by
        rw [hsplit, List.nodup_append] at hnodup
        exact ⟨fun ha => hnodup.2.2 y ha y List.mem_cons_self rfl,
          (List.nodup_cons.1 hnodup.2.1).1⟩
      obtain ⟨rfl, -, -⟩ := (List.append_cons_inj_of_notMem hy'.1 hy'.2).1 heq
      exact ⟨pre, post', by rw [hsplit']; simp, htip⟩

/-- **Truncation is all that goes unnoticed** from the start of a chain. -/
theorem LinksFrom.prefix_of_subset (hS : L.Separates b {a | a ∈ l}) (hx : L.LinksFrom b l)
    (hcarry : ∀ x ∈ l, L.Carries x) (hy : L.LinksFrom b r) (hsub : r ⊆ l) : r <+: l := by
  by_cases hne : r = []
  · rw [hne]
    exact List.nil_prefix
  · obtain ⟨pre, post, hsplit, htip⟩ := hx.infix_of_subset hS hcarry hy hsub hne
    have hlast := hS.eq_of_tip (l := pre) (r := []) (fun a ha => by simp [hsplit, ha])
      (by simp) htip
    obtain rfl : pre = [] := by simpa using hlast
    exact ⟨post, hsplit.symm⟩

/-- A chain cannot start behind one of its own entries. -/
theorem LinksFrom.false_of_cycle (hS : L.Separates b {a | a ∈ l}) (hx : L.LinksFrom b l)
    (hcarry : ∀ x ∈ l, L.Carries x) (hy : L.LinksFrom (L.hash y) r) (hsub : r ⊆ l)
    (hmem : y ∈ r) : False := by
  have hnodup : l.Nodup := LinksFrom.nodup (l := []) hS (fun a ha => ha) hx hcarry
  obtain ⟨pre, post, hsplit, htip⟩ := hx.infix_of_subset hS hcarry hy hsub (List.ne_nil_of_mem hmem)
  rw [← tip_concat (b := b) (x := y) (l := [])] at htip
  have hlast := hS.eq_of_tip (l := pre) (r := [] ++ [y]) (fun a ha => by simp [hsplit, ha])
    (fun a ha => by rw [hsplit]; simp_all) htip
  rw [List.getLast?_concat] at hlast
  rw [hsplit, List.nodup_append] at hnodup
  exact hnodup.2.2 y (List.mem_of_getLast? hlast) y (List.mem_append_left _ hmem) rfl

/-! ## Selections -/

/-- The part of a list that `sel` selects is a prefix if whatever comes before a selected entry is
selected. -/
theorem filter_prefix_iff {sel : α → Bool} :
    l.filter sel <+: l ↔ l.Pairwise fun a b => sel b = true → sel a = true := by
  induction l with
  | nil => simp
  | cons x l ih =>
    rw [List.pairwise_cons, ← ih]
    cases hx : sel x with
    | true =>
      rw [List.filter_cons_of_pos hx, List.cons_prefix_cons]
      simp
    | false =>
      rw [List.filter_cons_of_neg (by simp [hx])]
      constructor
      · intro h
        cases hf : l.filter sel with
        | nil =>
          rw [List.filter_eq_nil_iff] at hf
          exact ⟨fun b hb hsel => absurd hsel (hf b hb), List.nil_prefix⟩
        | cons y r =>
          rw [hf, List.cons_prefix_cons] at h
          have : y ∈ l.filter sel := by rw [hf]; exact List.mem_cons_self
          rw [h.1, List.mem_filter, hx] at this
          exact absurd this.2 (by simp)
      · rintro ⟨h, -⟩
        have : l.filter sel = [] :=
          List.filter_eq_nil_iff.2 fun b hb hsel => by simpa using h b hb hsel
        rw [this]
        exact List.nil_prefix

/-- **A selection that goes on from an entry is a chain exactly if it leaves no gap.** -/
theorem linksFrom_filter {sel : α → Bool} (hinj : S.InjOn L.hash) (hmem : ∀ a ∈ x :: r, a ∈ S)
    (hnodup : (x :: r).Nodup) (h : L.LinksFrom (L.hash x) r) (hcarry : ∀ y ∈ r, L.Carries y) :
    L.LinksFrom (L.hash x) (r.filter sel) ↔ r.filter sel <+: r := by
  induction r generalizing x with
  | nil => simp [LinksFrom]
  | cons y r ih =>
    obtain ⟨hy, hys⟩ := h
    have ih := ih (x := y) (fun a ha => hmem a (List.mem_cons_of_mem _ ha))
      (List.nodup_cons.1 hnodup).2 hys fun z hz => hcarry z (List.mem_cons_of_mem _ hz)
    cases hsel : sel y with
    | true =>
      rw [List.filter_cons_of_pos hsel, LinksFrom, List.cons_prefix_cons, ih]
      simp [hy]
    | false =>
      rw [List.filter_cons_of_neg (by simp [hsel])]
      cases hf : r.filter sel with
      | nil => simp [LinksFrom]
      | cons z t =>
        have hz : z ∈ r ∧ sel z = true := List.mem_filter.1 (hf ▸ List.mem_cons_self)
        refine iff_of_false (fun hlinks => ?_) fun hpre => ?_
        · -- `z` carries the hash of the entry before it, which is not `x`
          obtain ⟨pre, post, rfl⟩ := List.append_of_mem hz.1
          rw [linksFrom_append, LinksFrom] at hys
          have htip := Accepts.unique (hcarry z (List.mem_cons_of_mem _ hz.1)) hlinks.1 hys.2.1
          rw [← tip_cons (b := L.hash x)] at htip
          rcases List.eq_nil_or_concat' (y :: pre) with hnil | ⟨pre', w, hw⟩
          · cases hnil
          · rw [hw, tip_concat] at htip
            have hwmem : w ∈ y :: (pre ++ z :: post) := by
              have : w ∈ y :: pre := by rw [hw]; simp
              rcases List.mem_cons.1 this with rfl | this
              · exact List.mem_cons_self
              · exact List.mem_cons_of_mem _ (List.mem_append_left _ this)
            have hxw := hinj (hmem x List.mem_cons_self) (hmem w (List.mem_cons_of_mem _ hwmem)) htip
            exact (List.nodup_cons.1 hnodup).1 (hxw ▸ hwmem)
        · rw [List.cons_prefix_cons] at hpre
          rw [hpre.1, hsel] at hz
          exact absurd hz.2 (by simp)

end HashLinks
