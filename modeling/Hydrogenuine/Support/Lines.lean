import Hydrogenuine.Support.PyValue

/-!
# Lines of a text

`str.splitlines`, which breaks a text at more characters than the newline, and the
lines that are not blank.  Texts are lists of characters here.

A text that ends where a line ends can be read on its own: what follows it adds
its own lines.  A text without a break is one line, and a break between two
characters that are no blanks makes at least two lines of it.
-/

namespace Hydrogenuine.Support.Lines

/-! ## Breaks -/

/-- The characters after which `splitlines` starts a new line. -/
def isBreak (c : Char) : Bool :=
  let n := c.toNat
  (10 ≤ n && n ≤ 13) || (28 ≤ n && n ≤ 30) || n == 133 || n == 8232 || n == 8233

/-- A character in front of the first line. -/
def extend (c : Char) : List (List Char) → List (List Char)
  | [] => [[c]]
  | line :: rest => (c :: line) :: rest

/-- `text.splitlines()`.  A carriage return with a newline is one break, which the
newline makes. -/
def splitlines : List Char → List (List Char)
  | [] => []
  | c :: cs =>
      if isBreak c then
        if c = '\r' ∧ cs.head? = some '\n' then splitlines cs
        else [] :: splitlines cs
      else extend c (splitlines cs)

/-- `bool(line.strip())`. -/
def isFilled (line : List Char) : Bool := line.any fun c => !isSpace c

/-- `[line for line in text.splitlines() if line.strip()]`. -/
def filledLines (text : List Char) : List (List Char) :=
  (splitlines text).filter isFilled

variable {text : List Char} {c : Char}

theorem isSpace_of_isBreak (h : isBreak c = true) :
    isSpace c = true := by
  simp only [isBreak, isSpace, Bool.or_eq_true, Bool.and_eq_true,
    decide_eq_true_eq, beq_iff_eq] at h ⊢
  omega

theorem extend_append (c : Char) {first : List (List Char)} (h : first ≠ [])
    (rest : List (List Char)) :
    extend c (first ++ rest) = extend c first ++ rest := by
  cases first with
  | nil => exact absurd rfl h
  | cons line lines => rfl

theorem splitlines_ne_nil (c : Char) (cs : List Char) :
    splitlines (c :: cs) ≠ [] := by
  rw [splitlines]
  split
  · next hbreak =>
      split
      · next hreturn =>
          obtain ⟨-, hhead⟩ := hreturn
          obtain ⟨rest, rfl⟩ := List.head?_eq_some_iff.mp hhead
          rw [splitlines, if_pos (by decide),
            if_neg fun h => absurd h.1 (by decide)]
          exact List.cons_ne_nil _ _
      · exact List.cons_ne_nil _ _
  · cases splitlines cs with
    | nil => exact List.cons_ne_nil _ _
    | cons line lines => exact List.cons_ne_nil _ _

/-- What follows a break adds its own lines. -/
theorem splitlines_append_cons (hbreak : isBreak c = true) (hreturn : c ≠ '\r')
    (a b : List Char) :
    splitlines (a ++ c :: b) = splitlines (a ++ [c]) ++ splitlines b := by
  induction a with
  | nil =>
      rw [List.nil_append, List.nil_append, splitlines, if_pos hbreak,
        if_neg fun h => hreturn h.1, splitlines, if_pos hbreak,
        if_neg fun h => hreturn h.1]
      rfl
  | cons d a ih =>
      have hhead : (a ++ c :: b).head? = (a ++ [c]).head? := by
        cases a with
        | nil => rfl
        | cons e a => rfl
      have hne : splitlines (a ++ [c]) ≠ [] := by
        cases a with
        | nil => exact splitlines_ne_nil c []
        | cons e a => exact splitlines_ne_nil e (a ++ [c])
      rw [List.cons_append, List.cons_append, splitlines, splitlines, hhead, ih]
      split
      · split
        · rfl
        · rfl
      · exact extend_append d hne _

/-- A newline ends the line that it follows. -/
theorem splitlines_newline (hne : text ≠ [])
    (h : ∀ c ∈ text, isBreak c = false) : splitlines (text ++ ['\n']) = [text] := by
  induction text with
  | nil => exact absurd rfl hne
  | cons c cs ih =>
      have hc : isBreak c = false := h c List.mem_cons_self
      rw [List.cons_append, splitlines, hc]
      cases cs with
      | nil => rfl
      | cons d ds =>
          rw [ih (List.cons_ne_nil d ds) fun e he =>
            h e (List.mem_cons_of_mem c he)]
          rfl

/-- A character that is no break lies in a line. -/
theorem exists_mem_splitlines (hmem : c ∈ text)
    (hc : isBreak c = false) : ∃ line ∈ splitlines text, c ∈ line := by
  induction text with
  | nil => cases hmem
  | cons d text ih =>
      have hrest : ∀ lines : List (List Char), (∀ line ∈ splitlines text, ∃ line' ∈ lines,
          line ⊆ line') → c ∈ text → ∃ line ∈ lines, c ∈ line := by
        intro lines hlines htext
        obtain ⟨line, hline, hin⟩ := ih htext
        obtain ⟨line', hline', hsub⟩ := hlines line hline
        exact ⟨line', hline', hsub hin⟩
      rw [splitlines]
      rcases List.mem_cons.mp hmem with rfl | htext
      · rw [hc]
        cases splitlines text with
        | nil => exact ⟨[c], List.mem_cons_self, List.mem_cons_self⟩
        | cons line lines =>
            exact ⟨c :: line, List.mem_cons_self, List.mem_cons_self⟩
      · refine hrest _ ?_ htext
        intro line hline
        split
        · split
          · exact ⟨line, hline, List.Subset.refl line⟩
          · exact ⟨line, List.mem_cons_of_mem _ hline, List.Subset.refl line⟩
        · cases hlines : splitlines text with
          | nil =>
              rw [hlines] at hline
              cases hline
          | cons first lines =>
              rw [hlines] at hline
              rcases List.mem_cons.mp hline with rfl | hline
              · exact ⟨d :: line, List.mem_cons_self, List.subset_cons_self d line⟩
              · exact ⟨line, List.mem_cons_of_mem _ hline,
                  List.Subset.refl line⟩

/-! ## Lines that are not blank -/

/-- The text is empty or ends with a newline. -/
def Ended (text : List Char) : Prop := text = [] ∨ ∃ rest, text = rest ++ ['\n']

theorem Ended.append (text : List Char) {line : List Char}
    (h : ∃ rest, line = rest ++ ['\n']) : Ended (text ++ line) := by
  obtain ⟨rest, rfl⟩ := h
  exact Or.inr ⟨text ++ rest, (List.append_assoc _ _ _).symm⟩

/-- What is written after the end of a line adds its own lines. -/
theorem filledLines_append (h : Ended text)
    (more : List Char) :
    filledLines (text ++ more) = filledLines text ++ filledLines more := by
  rcases h with rfl | ⟨rest, rfl⟩
  · rfl
  · rw [filledLines, List.append_assoc, List.singleton_append,
      splitlines_append_cons (by decide) (by decide), List.filter_append]
    rfl

theorem filledLines_newline (hfilled : isFilled text = true)
    (h : ∀ c ∈ text, isBreak c = false) :
    filledLines (text ++ ['\n']) = [text] := by
  have hne : text ≠ [] := by
    rintro rfl
    exact absurd hfilled (by decide)
  rw [filledLines, splitlines_newline hne h, List.filter_cons, if_pos hfilled]
  rfl

/-- A text with a character that is no blank has a line. -/
theorem filledLines_pos (hmem : c ∈ text)
    (hc : isSpace c = false) : 0 < (filledLines text).length := by
  have hbreak : isBreak c = false := by
    rw [Bool.eq_false_iff]
    intro h
    rw [isSpace_of_isBreak h] at hc
    cases hc
  obtain ⟨line, hline, hin⟩ := exists_mem_splitlines hmem hbreak
  refine List.length_pos_of_mem (List.mem_filter.mpr ⟨hline, ?_⟩)
  rw [isFilled, List.any_eq_true]
  exact ⟨c, hin, by rw [hc]; rfl⟩

/-- A break between two characters that are no blanks makes two lines. -/
theorem two_le_filledLines
    {a b : List Char} {c d e : Char} (hbreak : isBreak c = true)
    (hreturn : c ≠ '\r') (hd : d ∈ a) (hdspace : isSpace d = false)
    (he : e ∈ b) (hespace : isSpace e = false) :
    2 ≤ (filledLines (a ++ c :: b)).length := by
  have hfirst : 0 < (filledLines (a ++ [c])).length :=
    filledLines_pos (List.mem_append_left _ hd) hdspace
  have hsecond : 0 < (filledLines b).length := filledLines_pos he hespace
  have hsplit : filledLines (a ++ c :: b) =
      filledLines (a ++ [c]) ++ filledLines b := by
    rw [filledLines, splitlines_append_cons hbreak hreturn, List.filter_append]
    rfl
  rw [hsplit, List.length_append]
  omega

end Hydrogenuine.Support.Lines
