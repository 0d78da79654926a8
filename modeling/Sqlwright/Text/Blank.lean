/-!
# Blank characters and trimming

White space is Unicode's property `White_Space`. A text is blank when it holds nothing else, and
trimming removes the blank characters at its ends.
-/

namespace Sqlwright.Text

/-- Whether the code point of `c` lies in one of the closed ranges. -/
def inRanges (ranges : List (Nat × Nat)) (c : Char) : Bool :=
  ranges.any fun r => decide (r.1 ≤ c.toNat) && decide (c.toNat ≤ r.2)

/-- The white space of Unicode, as closed ranges of code points. -/
def blankRanges : List (Nat × Nat) :=
  [(0x9, 0xD), (0x20, 0x20), (0x85, 0x85), (0xA0, 0xA0), (0x1680, 0x1680), (0x2000, 0x200A),
   (0x2028, 0x2029), (0x202F, 0x202F), (0x205F, 0x205F), (0x3000, 0x3000)]

/-- Whether a character is white space. -/
def isBlank (c : Char) : Bool := inRanges blankRanges c

/-- The characters without the blank ones at the front. -/
def trimFront (cs : List Char) : List Char := cs.dropWhile isBlank

/-- The text without the blank characters at either end. -/
def trim (s : String) : String :=
  String.ofList (trimFront (trimFront s.toList).reverse).reverse

/-- Whether a text holds white space only. -/
def isBlankText (s : String) : Bool := s.toList.all isBlank

@[simp] theorem trimFront_nil : trimFront [] = [] := rfl

theorem trimFront_eq_nil_iff {cs : List Char} :
    trimFront cs = [] ↔ ∀ c ∈ cs, isBlank c = true := by
  induction cs with
  | nil => simp
  | cons c cs ih =>
    by_cases h : isBlank c = true
    · rw [trimFront, List.dropWhile_cons_of_pos h]
      exact ih.trans (by simp [h])
    · rw [trimFront, List.dropWhile_cons_of_neg h]
      simp [h]

/-- Trimming leaves nothing of exactly the blank texts. -/
theorem trim_eq_empty_iff (s : String) : trim s = "" ↔ isBlankText s = true := by
  have h : trim s = "" ↔ (trimFront (trimFront s.toList).reverse).reverse = [] := by
    rw [trim, ← String.toList_inj]
    simp
  rw [h, List.reverse_eq_nil_iff, trimFront_eq_nil_iff, isBlankText, List.all_eq_true]
  constructor
  · intro hall
    by_cases hne : trimFront s.toList = []
    · exact trimFront_eq_nil_iff.1 hne
    · have hb := List.head_dropWhile_not isBlank hne
      have hm : (trimFront s.toList).head hne ∈ (trimFront s.toList).reverse :=
        List.mem_reverse.2 (List.head_mem hne)
      exact absurd ((hall _ hm).symm.trans hb) (by simp)
  · intro hall
    rw [trimFront_eq_nil_iff.2 hall]
    simp

end Sqlwright.Text
