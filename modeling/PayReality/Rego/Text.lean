import PayReality.Json

/-!
# Rego source text

A source is a list of characters and of JSON documents that `json.dumps` wrote into it. Reading
it gives its non-empty lines as tokens. Tokens are formed from the right, one symbol at a time;
a `#` drops the rest of its line. Operators of two characters stay two tokens, and quotes are
ordinary punctuation: the generated text quotes only through `json.dumps`.
-/

namespace PayReality.Rego

inductive Sym where
  | ch (c : Char)
  | json (v : Json)

abbrev Source := List Sym

def chars (cs : List Char) : Source := cs.map .ch

def text (s : String) : Source := chars s.toList

/-! ## Tokens -/

inductive Tok where
  | word (s : List Char)
  | number (s : List Char)
  | punct (c : Char)
  | lit (v : Json)
  | space

/-- The letters of a Rego identifier. -/
def isLetter (c : Char) : Bool := c.isAlpha || c = '_'

def isWordChar (c : Char) : Bool := isLetter c || c.isDigit

/-- A Rego identifier: a letter, then letters and digits. -/
def isIdentifier : List Char → Bool
  | [] => false
  | c :: cs => isLetter c && cs.all isWordChar

/-- A letter joins the word or the number right after it. -/
def joinLetter (c : Char) : List Tok → List Tok
  | .word s :: ts => .word (c :: s) :: ts
  | .number s :: ts => .word (c :: s) :: ts
  | ts => .word [c] :: ts

/-- A digit joins the word or the number right after it into a number. -/
def joinDigit (c : Char) : List Tok → List Tok
  | .word s :: ts => .number (c :: s) :: ts
  | .number s :: ts => .number (c :: s) :: ts
  | ts => .number [c] :: ts

/-- One symbol in front of the tokens of the rest of its line. -/
def scan : Sym → List Tok → List Tok
  | .json v, ts => .lit v :: ts
  | .ch c, ts =>
    if c = '#' then []
    else if c = ' ' ∨ c = '\t' ∨ c = '\r' then .space :: ts
    else if isLetter c then joinLetter c ts
    else if c.isDigit then joinDigit c ts
    else .punct c :: ts

/-- A piece of one line in front of the tokens of the rest. -/
def scanAll (s : Source) (ts : List Tok) : List Tok := s.foldr scan ts

@[simp] theorem scanAll_nil (ts : List Tok) : scanAll [] ts = ts := rfl

@[simp] theorem scanAll_cons (x : Sym) (s : Source) (ts : List Tok) :
    scanAll (x :: s) ts = scan x (scanAll s ts) := rfl

@[simp] theorem scanAll_append (s t : Source) (ts : List Tok) :
    scanAll (s ++ t) ts = scanAll s (scanAll t ts) := List.foldr_append

/-! ## Lines -/

def isNewline : Sym → Bool
  | .ch c => c = '\n'
  | .json _ => false

/-- The lines of a source, as tokens; never empty. -/
def scanLines : Source → List (List Tok)
  | [] => [[]]
  | x :: s =>
    if isNewline x then [] :: scanLines s
    else
      match scanLines s with
      | [] => [scan x []]
      | l :: ls => scan x l :: ls

def Tok.isSpace : Tok → Bool
  | .space => true
  | _ => false

def noSpaces (ts : List Tok) : List Tok := ts.filter fun t => !t.isSpace

/-- The non-empty lines of a source. -/
def read (s : Source) : List (List Tok) := ((scanLines s).map noSpaces).filter (· matches _ :: _)

theorem scanLines_ne_nil (s : Source) : scanLines s ≠ [] := by
  cases s with
  | nil => simp [scanLines]
  | cons x s =>
    simp only [scanLines]
    split
    · simp
    · split <;> simp

theorem scanLines_append {s t : Source} :
    scanLines (s ++ .ch '\n' :: t) = scanLines s ++ scanLines t := by
  induction s with
  | nil => rfl
  | cons x s ih =>
    simp only [List.cons_append, scanLines, ih]
    split
    · rfl
    · cases hs : scanLines s with
      | nil => exact absurd hs (scanLines_ne_nil s)
      | cons l ls => rfl

/-- Text on both sides of a line break is read apart. -/
theorem read_append (s t : Source) : read (s ++ .ch '\n' :: t) = read s ++ read t := by
  simp [read, scanLines_append]

theorem scanLines_line {s : Source} (h : ∀ x ∈ s, isNewline x = false) :
    scanLines s = [scanAll s []] := by
  induction s with
  | nil => rfl
  | cons x s ih =>
    have hs := ih fun y hy => h y (List.mem_cons_of_mem _ hy)
    simp [scanLines, h x List.mem_cons_self, hs]

/-- A line of text is read as its tokens. -/
theorem read_line {s : Source} (h : ∀ x ∈ s, isNewline x = false) {t : Tok} {ts : List Tok}
    (hs : noSpaces (scanAll s []) = t :: ts) : read s = [t :: ts] := by
  simp [read, scanLines_line h, hs]

/-! ## Words -/

/-- A token that does not join a word in front of it. -/
def apart : List Tok → Bool
  | .word _ :: _ | .number _ :: _ => false
  | _ => true

theorem joinLetter_apart (c : Char) {ts : List Tok} (h : apart ts = true) :
    joinLetter c ts = .word [c] :: ts := by
  unfold apart at h
  unfold joinLetter
  split at h <;> simp_all

theorem joinDigit_apart (c : Char) {ts : List Tok} (h : apart ts = true) :
    joinDigit c ts = .number [c] :: ts := by
  unfold apart at h
  unfold joinDigit
  split at h <;> simp_all

theorem isWordChar_ne {c : Char} (h : isWordChar c = true) :
    c ≠ '#' ∧ c ≠ ' ' ∧ c ≠ '\t' ∧ c ≠ '\r' := by
  refine ⟨?_, ?_, ?_, ?_⟩ <;> rintro rfl <;> revert h <;> decide

theorem scan_letter {c : Char} (h : isLetter c = true) (ts : List Tok) :
    scan (.ch c) ts = joinLetter c ts := by
  have hc := isWordChar_ne (c := c) (by simp [isWordChar, h])
  simp [scan, hc, h]

theorem scan_digit {c : Char} (hl : isLetter c = false) (h : c.isDigit = true) (ts : List Tok) :
    scan (.ch c) ts = joinDigit c ts := by
  have hc := isWordChar_ne (c := c) (by simp [isWordChar, h])
  simp [scan, hc, h, hl]

theorem scan_wordChar {c : Char} (h : isWordChar c = true) (ts : List Tok) :
    scan (.ch c) ts = joinLetter c ts ∨ scan (.ch c) ts = joinDigit c ts := by
  cases hl : isLetter c with
  | true => exact .inl (scan_letter hl ts)
  | false => exact .inr (scan_digit hl (by simpa [isWordChar, hl] using h) ts)

theorem scanAll_wordChars {cs : List Char} (h : cs.all isWordChar = true) (hne : cs ≠ [])
    {ts : List Tok} (ht : apart ts = true) :
    scanAll (chars cs) ts = .word cs :: ts ∨ scanAll (chars cs) ts = .number cs :: ts := by
  induction cs with
  | nil => exact absurd rfl hne
  | cons c cs ih =>
    simp only [List.all_cons, Bool.and_eq_true] at h
    simp only [chars, List.map_cons, scanAll_cons]
    by_cases hcs : cs = []
    · subst hcs
      simp only [List.map_nil, scanAll_nil]
      rcases scan_wordChar h.1 ts with hs | hs
      · exact .inl (hs.trans (joinLetter_apart c ht))
      · exact .inr (hs.trans (joinDigit_apart c ht))
    · rcases ih h.2 hcs with hr | hr <;> simp only [chars] at hr <;> rw [hr] <;>
        rcases scan_wordChar h.1 _ with hs | hs <;> rw [hs] <;> simp [joinLetter, joinDigit]

/-- An identifier is read as one word. -/
theorem scanAll_identifier {cs : List Char} (h : isIdentifier cs = true) {ts : List Tok}
    (ht : apart ts = true) : scanAll (chars cs) ts = .word cs :: ts := by
  cases cs with
  | nil => cases h
  | cons c cs =>
    simp only [isIdentifier, Bool.and_eq_true] at h
    simp only [chars, List.map_cons, scanAll_cons, scan_letter h.1]
    by_cases hcs : cs = []
    · subst hcs
      exact joinLetter_apart c ht
    · rcases scanAll_wordChars h.2 hcs ht with hr | hr <;> simp only [chars] at hr <;> rw [hr] <;>
        rfl

/-- What every token that is read satisfies. -/
def Tok.wellFormed : Tok → Prop
  | .word s => isIdentifier s = true
  | .number s => s.all isWordChar = true
  | _ => True

theorem isIdentifier_wordChars {cs : List Char} (h : isIdentifier cs = true) :
    cs.all isWordChar = true := by
  cases cs with
  | nil => rfl
  | cons c cs =>
    simp only [isIdentifier, Bool.and_eq_true] at h
    simp [isWordChar, h.1, List.all_cons, h.2]

theorem isIdentifier_append {cs ds : List Char} (h : isIdentifier cs = true)
    (hd : ds.all isWordChar = true) : isIdentifier (cs ++ ds) = true := by
  cases cs with
  | nil => cases h
  | cons c cs =>
    simp only [isIdentifier, Bool.and_eq_true] at h
    simp [isIdentifier, h.1, hd, List.all_append, h.2]

theorem joinLetter_wellFormed {c : Char} (hc : isLetter c = true) {ts : List Tok}
    (h : ∀ t ∈ ts, t.wellFormed) : ∀ t ∈ joinLetter c ts, t.wellFormed := by
  have hcs : ∀ s : List Char, s.all isWordChar = true → isIdentifier (c :: s) = true := by
    intro s hs
    simp [isIdentifier, hc, hs]
  unfold joinLetter
  split
  · next s ts =>
    simp only [List.forall_mem_cons] at h ⊢
    exact ⟨hcs s (isIdentifier_wordChars h.1), h.2⟩
  · next s ts =>
    simp only [List.forall_mem_cons] at h ⊢
    exact ⟨hcs s h.1, h.2⟩
  · simp only [List.forall_mem_cons]
    exact ⟨hcs [] rfl, h⟩

theorem joinDigit_wellFormed {c : Char} (hc : c.isDigit = true) {ts : List Tok}
    (h : ∀ t ∈ ts, t.wellFormed) : ∀ t ∈ joinDigit c ts, t.wellFormed := by
  have hcs : ∀ s : List Char, s.all isWordChar = true → (c :: s).all isWordChar = true := by
    intro s hs
    simp [isWordChar, hc, List.all_cons, hs]
  unfold joinDigit
  split
  · next s ts =>
    simp only [List.forall_mem_cons] at h ⊢
    exact ⟨hcs s (isIdentifier_wordChars h.1), h.2⟩
  · next s ts =>
    simp only [List.forall_mem_cons] at h ⊢
    exact ⟨hcs s h.1, h.2⟩
  · simp only [List.forall_mem_cons]
    exact ⟨hcs [] rfl, h⟩

theorem scan_wellFormed (x : Sym) {ts : List Tok} (h : ∀ t ∈ ts, t.wellFormed) :
    ∀ t ∈ scan x ts, t.wellFormed := by
  unfold scan
  split
  · exact List.forall_mem_cons.2 ⟨trivial, h⟩
  · next c ts =>
    split_ifs with hhash hspace hletter hdigit
    · simp
    · exact List.forall_mem_cons.2 ⟨trivial, h⟩
    · exact joinLetter_wellFormed hletter h
    · exact joinDigit_wellFormed hdigit h
    · exact List.forall_mem_cons.2 ⟨trivial, h⟩

theorem scanLines_wellFormed (s : Source) : ∀ l ∈ scanLines s, ∀ t ∈ l, t.wellFormed := by
  induction s with
  | nil => simp [scanLines]
  | cons x s ih =>
    unfold scanLines
    split
    · exact List.forall_mem_cons.2 ⟨by simp, ih⟩
    · split
      · exact List.forall_mem_cons.2 ⟨scan_wellFormed x (by simp), by simp⟩
      · next l ls hs =>
        rw [hs, List.forall_mem_cons] at ih
        exact List.forall_mem_cons.2 ⟨scan_wellFormed x ih.1, ih.2⟩

/-- **Every word that is read is an identifier**, whatever the source. -/
theorem read_words (s : Source) {l : List Tok} (hl : l ∈ read s) {w : List Char}
    (hw : .word w ∈ l) : isIdentifier w = true := by
  simp only [read, List.mem_filter, List.mem_map] at hl
  obtain ⟨⟨l', hl', rfl⟩, -⟩ := hl
  exact scanLines_wellFormed s l' hl' _ (List.mem_of_mem_filter hw)

end PayReality.Rego
