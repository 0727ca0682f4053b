import PayReality.Dict

/-!
# What the tokens of a value determine

The encodings of `Json` are terms: leaves, and brackets around terms. No term is a proper beginning of
another one (`Term.prefixFree`), so equal tokens have equal parts.

* `key_get?`: values that Python or Rego takes for equal have members that it takes for equal.
* `key_of_stableRepr`: values with one canonical text are equal to both.
-/

namespace PayReality.Json

/-! ## Terms -/

inductive Term : List Token → Prop
  | leaf {rank : ℕ} {q : ℚ} {s : String} : rank ≠ 0 → rank ≠ 5 → rank ≠ 6 →
      Term [Token.mk rank q s]
  | arr {tss : List (List Token)} : (∀ ts ∈ tss, Term ts) →
      Term (Token.mk 5 0 "" :: (tss.flatten ++ [Token.stop]))
  | obj {es : List (String × List Token)} : (∀ e ∈ es, Term e.2) →
      Term (Token.mk 6 0 "" :: (es.flatMap (fun e => Token.mk 4 0 e.1 :: e.2) ++ [Token.stop]))

theorem token_mk_inj {rank rank' : ℕ} {q q' : ℚ} {s s' : String} :
    Token.mk rank q s = Token.mk rank' q' s' ↔ rank = rank' ∧ q = q' ∧ s = s' := by
  simp [Token.mk]

/-- A term begins with something other than the end of a bracket. -/
theorem Term.ne_stop {ts us vs : List Token} (h : Term ts) : ts ++ us ≠ Token.stop :: vs := by
  cases h with
  | leaf h0 => simp [Token.stop, token_mk_inj, h0]
  | arr | obj => simp [Token.stop, token_mk_inj]

/-- A sequence of terms up to the end of a bracket. -/
theorem flatten_inj {tss tss' : List (List Token)} {r r' : List Token}
    (hfree : ∀ ts ∈ tss, ∀ {t r r'}, Term t → ts ++ r = t ++ r' → ts = t ∧ r = r')
    (hts : ∀ ts ∈ tss, Term ts) (hts' : ∀ ts ∈ tss', Term ts)
    (h : tss.flatten ++ Token.stop :: r = tss'.flatten ++ Token.stop :: r') :
    tss = tss' ∧ r = r' := by
  induction tss generalizing tss' with
  | nil =>
    cases tss' with
    | nil => exact ⟨rfl, by simpa using h⟩
    | cons t tss' =>
      rw [List.flatten_cons, List.append_assoc] at h
      exact absurd h.symm (hts' t List.mem_cons_self).ne_stop
  | cons s tss ih =>
    cases tss' with
    | nil =>
      rw [List.flatten_cons, List.append_assoc] at h
      exact absurd h (hts s List.mem_cons_self).ne_stop
    | cons t tss' =>
      rw [List.flatten_cons, List.append_assoc, List.flatten_cons, List.append_assoc] at h
      obtain ⟨rfl, hrest⟩ := hfree s List.mem_cons_self (hts' t List.mem_cons_self) h
      obtain ⟨rfl, hr⟩ := ih (fun ts hm => hfree ts (List.mem_cons_of_mem _ hm))
        (fun ts hm => hts ts (List.mem_cons_of_mem _ hm))
        (fun ts hm => hts' ts (List.mem_cons_of_mem _ hm)) hrest
      exact ⟨rfl, hr⟩

/-- The same for the members of an object. -/
theorem flatMap_inj {es es' : List (String × List Token)} {r r' : List Token}
    (hfree : ∀ e ∈ es, ∀ {t r r'}, Term t → e.2 ++ r = t ++ r' → e.2 = t ∧ r = r')
    (hes' : ∀ e ∈ es', Term e.2)
    (h : es.flatMap (fun e => Token.mk 4 0 e.1 :: e.2) ++ Token.stop :: r =
      es'.flatMap (fun e => Token.mk 4 0 e.1 :: e.2) ++ Token.stop :: r') :
    es = es' ∧ r = r' := by
  induction es generalizing es' with
  | nil =>
    cases es' with
    | nil => exact ⟨rfl, by simpa using h⟩
    | cons e es' => simp [Token.stop, token_mk_inj] at h
  | cons e es ih =>
    cases es' with
    | nil => simp [Token.stop, token_mk_inj] at h
    | cons e' es' =>
      simp only [List.flatMap_cons, List.cons_append, List.append_assoc, List.cons.injEq,
        token_mk_inj, true_and] at h
      obtain ⟨hk, h⟩ := h
      obtain ⟨hv, h⟩ := hfree e List.mem_cons_self (hes' e' List.mem_cons_self) h
      obtain ⟨rfl, hr⟩ := ih (fun d hm => hfree d (List.mem_cons_of_mem _ hm))
        (fun d hm => hes' d (List.mem_cons_of_mem _ hm)) h
      exact ⟨by rw [Prod.ext hk hv], hr⟩

/-- **No term begins another one.** -/
theorem Term.prefixFree {s t r r' : List Token} (hs : Term s) (ht : Term t)
    (h : s ++ r = t ++ r') : s = t ∧ r = r' := by
  induction hs generalizing t r r' with
  | leaf h0 h5 h6 =>
    cases ht with
    | leaf => simpa [List.cons.injEq] using h
    | arr => simp [token_mk_inj, h5] at h
    | obj => simp [token_mk_inj, h6] at h
  | @arr tss hts ih =>
    cases ht with
    | leaf _ h5 => simp [token_mk_inj, h5.symm] at h
    | arr hts' =>
      simp only [List.cons_append, List.append_assoc, List.nil_append, List.cons.injEq,
        true_and] at h
      obtain ⟨rfl, hr⟩ := flatten_inj (fun ts hm _ _ _ => ih ts hm) hts hts' h
      exact ⟨rfl, hr⟩
    | obj => simp [token_mk_inj] at h
  | @obj es hes ih =>
    cases ht with
    | leaf _ _ h6 => simp [token_mk_inj, h6.symm] at h
    | arr => simp [token_mk_inj] at h
    | obj hes' =>
      simp only [List.cons_append, List.append_assoc, List.nil_append, List.cons.injEq,
        true_and] at h
      obtain ⟨rfl, hr⟩ := flatMap_inj (fun e hm _ _ _ => ih e hm) hes' h
      exact ⟨rfl, hr⟩

/-! ## Encodings are terms -/

theorem keys_eq (py : Bool) (xs : List Json) : keys py xs = (xs.map (key py)).flatten := by
  induction xs with
  | nil => rfl
  | cons x xs ih => simp [keys, ih]

theorem entries_eq (py : Bool) (kvs : List (String × Json)) :
    entries py kvs = kvs.map fun e => (e.1, e.2.key py) := by
  induction kvs with
  | nil => rfl
  | cons e kvs ih => simp [entries, ih]

theorem stableReprs_eq (xs : List Json) : stableReprs xs = (xs.map stableRepr).flatten := by
  induction xs with
  | nil => rfl
  | cons x xs ih => simp [stableReprs, ih]

/-- Sorting the members of a dict, with any encoding of the values. -/
theorem sorted_entries (f : Json → List Token) (kvs : List (String × Json)) :
    (kvs.map fun e => (e.1, f e.2)).insertionSort (fun a b => a.1 ≤ b.1) =
      (kvs.insertionSort fun a b => a.1 ≤ b.1).map fun e => (e.1, f e.2) :=
  (List.map_insertionSort (r := fun a b : String × Json => a.1 ≤ b.1)
    (s := fun a b : String × List Token => a.1 ≤ b.1) (fun e => (e.1, f e.2)) kvs
    fun _ _ _ _ => Iff.rfl).symm

theorem key_arr (py : Bool) (xs : List Json) : (arr xs).key py =
    Token.mk 5 0 "" :: ((xs.map (key py)).flatten ++ [Token.stop]) := by
  rw [key, keys_eq]

theorem key_obj (py : Bool) (kvs : List (String × Json)) : (obj kvs).key py = Token.mk 6 0 "" ::
    (((kvs.insertionSort fun a b => a.1 ≤ b.1).map fun e => (e.1, e.2.key py)).flatMap
      (fun e => Token.mk 4 0 e.1 :: e.2) ++ [Token.stop]) := by
  rw [key, entries_eq, sorted_entries]

theorem stableRepr_arr (xs : List Json) : (arr xs).stableRepr =
    Token.mk 5 0 "" :: ((xs.map stableRepr).flatten ++ [Token.stop]) := by
  rw [stableRepr, stableReprs_eq]

theorem stableRepr_obj (kvs : List (String × Json)) : (obj kvs).stableRepr = Token.mk 6 0 "" ::
    (((kvs.insertionSort fun a b => a.1 ≤ b.1).map fun e => (e.1, e.2.stableRepr)).flatMap
      (fun e => Token.mk 4 0 e.1 :: e.2) ++ [Token.stop]) := by
  rw [stableRepr, stableEntries_eq, sorted_entries]

theorem term_key (py : Bool) : (v : Json) → Term (v.key py)
  | null | bool _ | int _ | float _ | str _ => by
    rw [key]
    exact .leaf (by first | split <;> simp | simp) (by first | split <;> simp | simp)
      (by first | split <;> simp | simp)
  | arr xs => by
    rw [key_arr]
    refine .arr fun ts hts => ?_
    obtain ⟨x, hx, rfl⟩ := List.mem_map.1 hts
    exact term_key py x
  | obj kvs => by
    rw [key_obj]
    refine .obj fun d hd => ?_
    obtain ⟨e, he, rfl⟩ := List.mem_map.1 hd
    have hmem := (List.mem_insertionSort _).1 he
    exact term_key py e.2
termination_by v => sizeOf v
decreasing_by
  all_goals
    simp_wf
    first
    | have := List.sizeOf_lt_of_mem hx; omega
    | have := List.sizeOf_lt_of_mem hmem; obtain ⟨k, v⟩ := e; simp at this ⊢; omega

theorem term_stableRepr : (v : Json) → Term v.stableRepr
  | null | bool _ | int _ | float _ | str _ => by
    rw [stableRepr]
    exact .leaf (by simp) (by simp) (by simp)
  | arr xs => by
    rw [stableRepr_arr]
    refine .arr fun ts hts => ?_
    obtain ⟨x, hx, rfl⟩ := List.mem_map.1 hts
    exact term_stableRepr x
  | obj kvs => by
    rw [stableRepr_obj]
    refine .obj fun d hd => ?_
    obtain ⟨e, he, rfl⟩ := List.mem_map.1 hd
    have hmem := (List.mem_insertionSort _).1 he
    exact term_stableRepr e.2
termination_by v => sizeOf v
decreasing_by
  all_goals
    simp_wf
    first
    | have := List.sizeOf_lt_of_mem hx; omega
    | have := List.sizeOf_lt_of_mem hmem; obtain ⟨k, v⟩ := e; simp at this ⊢; omega

/-! ## Parts -/

/-- Two objects with equal tokens have equal members in the order of their keys. -/
theorem members_of_key {py : Bool} {kvs kvs' : List (String × Json)}
    (h : (obj kvs).key py = (obj kvs').key py) :
    (kvs.insertionSort fun a b => a.1 ≤ b.1).map (fun e => (e.1, e.2.key py)) =
      (kvs'.insertionSort fun a b => a.1 ≤ b.1).map fun e => (e.1, e.2.key py) := by
  rw [key_obj, key_obj, List.cons.injEq] at h
  refine (flatMap_inj (fun d hd _ _ _ ht heq => ?_) (fun d hd => ?_) h.2).1
  · obtain ⟨e, -, rfl⟩ := List.mem_map.1 hd
    exact (term_key py e.2).prefixFree ht heq
  · obtain ⟨e, -, rfl⟩ := List.mem_map.1 hd
    exact term_key py e.2

theorem members_of_stableRepr {kvs kvs' : List (String × Json)}
    (h : (obj kvs).stableRepr = (obj kvs').stableRepr) :
    (kvs.insertionSort fun a b => a.1 ≤ b.1).map (fun e => (e.1, e.2.stableRepr)) =
      (kvs'.insertionSort fun a b => a.1 ≤ b.1).map fun e => (e.1, e.2.stableRepr) := by
  rw [stableRepr_obj, stableRepr_obj, List.cons.injEq] at h
  refine (flatMap_inj (fun d hd _ _ _ ht heq => ?_) (fun d hd => ?_) h.2).1
  · obtain ⟨e, -, rfl⟩ := List.mem_map.1 hd
    exact (term_stableRepr e.2).prefixFree ht heq
  · obtain ⟨e, -, rfl⟩ := List.mem_map.1 hd
    exact term_stableRepr e.2

theorem elements_of_stableRepr {xs ys : List Json} (h : (arr xs).stableRepr = (arr ys).stableRepr) :
    xs.map stableRepr = ys.map stableRepr := by
  rw [stableRepr_arr, stableRepr_arr, List.cons.injEq] at h
  refine (flatten_inj (fun ts hts _ _ _ ht heq => ?_) (fun ts hts => ?_) (fun ts hts => ?_) h.2).1
  · obtain ⟨x, -, rfl⟩ := List.mem_map.1 hts
    exact (term_stableRepr x).prefixFree ht heq
  · obtain ⟨x, -, rfl⟩ := List.mem_map.1 hts
    exact term_stableRepr x
  · obtain ⟨x, -, rfl⟩ := List.mem_map.1 hts
    exact term_stableRepr x

/-- Sorting by key keeps the first member of each key. -/
theorem find?_insertionSort (kvs : List (String × Json)) (k : String) :
    (kvs.insertionSort fun a b => a.1 ≤ b.1).find? (fun e => e.1 = k) =
      kvs.find? fun e => e.1 = k := by
  have hinsert : ∀ (e : String × Json) (ds : List (String × Json)),
      (ds.orderedInsert (fun a b => a.1 ≤ b.1) e).find? (fun d => d.1 = k) =
        (e :: ds).find? fun d => d.1 = k := by
    intro e ds
    induction ds with
    | nil => rfl
    | cons d ds ih =>
      by_cases hle : e.1 ≤ d.1
      · simp [hle]
      · have hne : d.1 ≠ e.1 := fun h => hle h.ge
        simp only [List.orderedInsert, hle, if_false, List.find?_cons, ih]
        by_cases he : e.1 = k
        · have hd : d.1 ≠ k := fun h => hne (h.trans he.symm)
          simp [he, hd]
        · simp [he]
  induction kvs with
  | nil => rfl
  | cons e kvs ih =>
    rw [List.insertionSort_cons, hinsert, List.find?_cons, List.find?_cons, ih]

/-- A lookup under an encoding that sorts the members. -/
theorem get?_map_eq {f : Json → List Token} {kvs kvs' : List (String × Json)}
    (h : (kvs.insertionSort fun a b => a.1 ≤ b.1).map (fun e => (e.1, f e.2)) =
      (kvs'.insertionSort fun a b => a.1 ≤ b.1).map fun e => (e.1, f e.2)) (k : String) :
    ((obj kvs).get? k).map f = ((obj kvs').get? k).map f := by
  have hfind : ∀ ds : List (String × Json), ((obj ds).get? k).map f =
      (((ds.insertionSort fun a b => a.1 ≤ b.1).map fun e => (e.1, f e.2)).find?
        fun e => e.1 = k).map Prod.snd := by
    intro ds
    rw [List.find?_map, Option.map_map, get?, Option.map_map]
    have : ((fun e : String × List Token => decide (e.1 = k)) ∘ fun e : String × Json =>
        (e.1, f e.2)) = fun e => decide (e.1 = k) := rfl
    rw [this, find?_insertionSort]
    rfl
  rw [hfind, hfind, h]

theorem get?_of_not_obj {v : Json} (h : ∀ kvs, v ≠ obj kvs) (k : String) : v.get? k = none := by
  cases v with
  | obj kvs => exact absurd rfl (h kvs)
  | _ => rfl

/-- The first token of a value shows whether it is an object. -/
theorem key_head_obj (py : Bool) {v : Json} :
    (∃ ts, v.key py = Token.mk 6 0 "" :: ts) ↔ ∃ kvs, v = obj kvs := by
  cases v with
  | bool => cases py <;> simp [key, token_mk_inj]
  | _ => simp [key, token_mk_inj]

/-- **Members of equal values are equal.** -/
theorem key_get? {py : Bool} {x y : Json} (h : x.key py = y.key py) (k : String) :
    (x.get? k).map (key py) = (y.get? k).map (key py) := by
  have hsame : (∃ kvs, x = obj kvs) ↔ ∃ kvs, y = obj kvs := by
    rw [← key_head_obj py, ← key_head_obj py, h]
  by_cases hx : ∃ kvs, x = obj kvs
  · obtain ⟨kvs, rfl⟩ := hx
    obtain ⟨kvs', rfl⟩ := hsame.1 ⟨kvs, rfl⟩
    exact get?_map_eq (members_of_key h) k
  · have hy := mt hsame.2 hx
    rw [get?_of_not_obj (not_exists.1 hx), get?_of_not_obj (not_exists.1 hy)]

theorem stableRepr_head_obj {v : Json} :
    (∃ ts, v.stableRepr = Token.mk 6 0 "" :: ts) ↔ ∃ kvs, v = obj kvs := by
  cases v <;> simp [stableRepr, token_mk_inj]

theorem stableRepr_get? {x y : Json} (h : x.stableRepr = y.stableRepr) (k : String) :
    (x.get? k).map stableRepr = (y.get? k).map stableRepr := by
  have hsame : (∃ kvs, x = obj kvs) ↔ ∃ kvs, y = obj kvs := by
    rw [← stableRepr_head_obj, ← stableRepr_head_obj, h]
  by_cases hx : ∃ kvs, x = obj kvs
  · obtain ⟨kvs, rfl⟩ := hx
    obtain ⟨kvs', rfl⟩ := hsame.1 ⟨kvs, rfl⟩
    exact get?_map_eq (members_of_stableRepr h) k
  · have hy := mt hsame.2 hx
    rw [get?_of_not_obj (not_exists.1 hx), get?_of_not_obj (not_exists.1 hy)]

/-- Lists that agree under one map agree under another one, if the elements do. -/
theorem map_eq_of_map_eq {α β γ : Type} {f : α → β} {g : α → γ} {xs ys : List α}
    (h : xs.map f = ys.map f) (hfg : ∀ x ∈ xs, ∀ y, f x = f y → g x = g y) :
    xs.map g = ys.map g := by
  induction xs generalizing ys with
  | nil =>
    obtain rfl := List.map_eq_nil_iff.1 h.symm
    rfl
  | cons x xs ih =>
    cases ys with
    | nil => cases h
    | cons y ys =>
      rw [List.map_cons, List.map_cons, List.cons.injEq] at h ⊢
      exact ⟨hfg x List.mem_cons_self y h.1, ih h.2 fun z hz => hfg z (List.mem_cons_of_mem _ hz)⟩

/-- **Values with one canonical text are equal**, to Python and to Rego. -/
theorem key_of_stableRepr (py : Bool) : (x y : Json) → x.stableRepr = y.stableRepr →
    x.key py = y.key py
  | null, y, h | bool _, y, h | int _, y, h | float _, y, h | str _, y, h => by
    cases y <;> simp [stableRepr, token_mk_inj] at h
    all_goals simp [key, h]
  | arr xs, y, h => by
    cases y with
    | arr ys =>
      have := map_eq_of_map_eq (g := key py) (elements_of_stableRepr h) fun x _ y hxy =>
        key_of_stableRepr py x y hxy
      rw [key_arr, key_arr, this]
    | _ => simp [stableRepr, token_mk_inj] at h
  | obj kvs, y, h => by
    cases y with
    | obj kvs' =>
      have := map_eq_of_map_eq (g := fun e : String × Json => (e.1, e.2.key py))
        (members_of_stableRepr h) fun e he d hed => by
          have hmem := (List.mem_insertionSort _).1 he
          rw [Prod.mk.injEq] at hed ⊢
          exact ⟨hed.1, key_of_stableRepr py e.2 d.2 hed.2⟩
      rw [key_obj, key_obj, this]
    | _ => simp [stableRepr, token_mk_inj] at h
termination_by x => sizeOf x
decreasing_by
  · simp_wf
    have := List.sizeOf_lt_of_mem ‹_ ∈ xs›
    omega
  · simp_wf
    have := List.sizeOf_lt_of_mem hmem
    obtain ⟨k, v⟩ := e
    simp at this ⊢
    omega

end PayReality.Json
