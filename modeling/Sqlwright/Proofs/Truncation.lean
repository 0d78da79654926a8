import Sqlwright.Execution.Logging

/-!
# Statements cut for the log

A layer of logging shows a statement with its parameters written in, cut to a number of bytes. A cut
goes back byte by byte until it meets a border between two characters. The first one it meets is the
last that fits, so what is left is the longest front of whole characters, and no more than three
bytes of the limit stay unused (`LogLayer.shown_cut`).
-/

namespace Sqlwright

/-! ## Borders -/

theorem byteIdx_lastBorder_le (s : String) (room : Nat) :
    (lastBorder s room).offset.byteIdx ≤ room := by
  induction room with
  | zero => exact Nat.le_refl 0
  | succ byte ih =>
    rw [lastBorder]
    split
    · exact Nat.le_refl (byte + 1)
    · exact Nat.le_succ_of_le ih

/-- Going back passes no border: the one it ends at is the last that fits. -/
theorem le_lastBorder {s : String} {room : Nat} (border : s.Pos)
    (h : border.offset.byteIdx ≤ room) : border ≤ lastBorder s room := by
  induction room with
  | zero =>
    show border ≤ s.startPos
    rw [String.Pos.le_iff, String.Pos.Raw.le_iff]
    exact h
  | succ byte ih =>
    rw [lastBorder]
    split
    · rw [String.Pos.le_iff, String.Pos.Raw.le_iff]
      exact h
    · rename_i hinside
      -- the border is not at the byte that is no border
      have hne : border.offset.byteIdx ≠ byte + 1 := by
        intro hlast
        apply hinside
        rw [← hlast]
        exact border.isValid
      exact ih (by omega)

/-- A text that fits has its end for its last border. -/
theorem lastBorder_of_fits {s : String} {room : Nat} (h : s.utf8ByteSize ≤ room) :
    lastBorder s room = s.endPos :=
  Std.le_antisymm (String.Pos.le_endPos _) (le_lastBorder _ h)

/-- Cut or not, what is left of a text is the front up to the last border that fits. -/
theorem exists_splits_truncate (s : String) (room : Nat) :
    ∃ rest, (lastBorder s room).Splits (truncate s room) rest := by
  rw [truncate]
  split
  · rename_i hfits
    rw [lastBorder_of_fits hfits]
    exact ⟨"", String.splits_endPos s⟩
  · exact ⟨_, String.Pos.splits _⟩

theorem utf8ByteSize_truncate (s : String) (room : Nat) :
    (truncate s room).utf8ByteSize = (lastBorder s room).offset.byteIdx := by
  obtain ⟨rest, hsplits⟩ := exists_splits_truncate s room
  rw [hsplits.offset_eq_rawEndPos, String.byteIdx_rawEndPos]

/-! ## Fronts -/

/-- The longest of the fronts of a text that fit into a number of bytes. A front is made of whole
characters. -/
structure IsLongestFront (s : String) (room : Nat) (front : String) : Prop where
  isFront : front.toList <+: s.toList
  fits : front.utf8ByteSize ≤ room
  longest : ∀ other : String, other.toList <+: s.toList → other.utf8ByteSize ≤ room →
    other.toList <+: front.toList

/-- A front of a text, and what is behind it. -/
theorem exists_eq_append {s front : String} (h : front.toList <+: s.toList) :
    ∃ rest, s = front ++ rest := by
  obtain ⟨chars, hchars⟩ := h
  refine ⟨String.ofList chars, ?_⟩
  rw [← String.toList_inj, String.toList_append, String.toList_ofList, hchars]

theorem isLongestFront_truncate (s : String) (room : Nat) :
    IsLongestFront s room (truncate s room) where
  isFront := by
    obtain ⟨rest, hsplits⟩ := exists_splits_truncate s room
    refine ⟨rest.toList, ?_⟩
    rw [← String.toList_append, ← hsplits.eq_append]
  fits := by
    rw [utf8ByteSize_truncate]
    exact byteIdx_lastBorder_le s room
  longest := by
    intro other hother hfits
    obtain ⟨rest, hrest⟩ := exists_eq_append hother
    obtain ⟨behind, hsplits⟩ := exists_splits_truncate s room
    have hborder := String.Pos.splits_ofEqAppend hrest
    have hroom : (String.Pos.ofEqAppend hrest).offset.byteIdx ≤ room := by
      rw [hborder.offset_eq_rawEndPos, String.byteIdx_rawEndPos]
      exact hfits
    obtain ⟨more, hmore, -⟩ :=
      (hborder.le_iff_exists_eq_append hsplits).1 (le_lastBorder _ hroom)
    rw [hmore, String.toList_append]
    exact List.prefix_append _ _

/-- There is no room for the character behind the longest front. -/
theorem IsLongestFront.lt_of_next {s front : String} {room : Nat} (h : IsLongestFront s room front)
    {c : Char} {rest : List Char} (hs : s.toList = front.toList ++ c :: rest) :
    room < front.utf8ByteSize + c.utf8Size := by
  apply Nat.lt_of_not_le
  intro hroom
  have hlist : (front ++ String.singleton c).toList = front.toList ++ [c] := by
    rw [String.toList_append, String.toList_singleton]
  have hlonger : (front ++ String.singleton c).toList <+: front.toList := by
    apply h.longest
    · rw [hlist, hs]
      exact ⟨rest, by simp⟩
    · rw [String.utf8ByteSize_append, String.utf8ByteSize_singleton]
      omega
  rw [hlist] at hlonger
  have hlength := hlonger.length_le
  rw [List.length_append, List.length_singleton] at hlength
  omega

/-- A front that fills the room is the longest. -/
theorem IsLongestFront.eq_of_full {s front other : String} {room : Nat}
    (h : IsLongestFront s room front) (hother : other.toList <+: s.toList)
    (hfull : other.utf8ByteSize = room) : front = other := by
  obtain ⟨more, rfl⟩ := exists_eq_append (h.longest other hother (Nat.le_of_eq hfull))
  have hfits := h.fits
  rw [String.utf8ByteSize_append] at hfits
  have hmore : more = "" := String.utf8ByteSize_eq_zero_iff.1 (by omega)
  rw [hmore, String.append_empty]

/-- Three bytes of the room stay unused at most. -/
theorem lt_lastBorder_add_four {s : String} {room : Nat} (h : room < s.utf8ByteSize) :
    room < (lastBorder s room).offset.byteIdx + 4 := by
  have hfront := isLongestFront_truncate s room
  obtain ⟨rest, hrest⟩ := exists_eq_append hfront.isFront
  rw [← utf8ByteSize_truncate]
  cases hchars : rest.toList with
  | nil =>
    -- nothing is cut off, so the text is no longer than the room
    have hsize := congrArg String.utf8ByteSize hrest
    have hfits := hfront.fits
    rw [String.toList_eq_nil_iff.1 hchars, String.append_empty] at hsize
    omega
  | cons c cs =>
    have hs : s.toList = (truncate s room).toList ++ c :: cs := by
      rw [← hchars, ← String.toList_append, ← hrest]
    have hnext := hfront.lt_of_next hs
    have hwidth := c.utf8Size_le_four
    omega

/-! ## What the log shows -/

namespace LogLayer

variable {l : LogLayer} {s : Statement}

theorem shown_of_fits
    (h : ∀ limit, l.limit = some limit → s.inlined.sql.utf8ByteSize ≤ limit) :
    l.shown s = s.inlined.sql := by
  rw [shown]
  cases hlimit : l.limit with
  | none => rfl
  | some limit => exact if_neg (Nat.not_lt.2 (h limit hlimit))

theorem shown_of_long {limit : Nat} (hlimit : l.limit = some limit)
    (h : limit < s.inlined.sql.utf8ByteSize) :
    l.shown s = truncate s.inlined.sql limit ++ "..." := by
  rw [shown, hlimit]
  exact if_pos h

/-- A statement that does not fit is shown as it is only where the dots take the place of dots. -/
theorem shown_eq_iff_of_long {limit : Nat} (hlimit : l.limit = some limit)
    (h : limit < s.inlined.sql.utf8ByteSize) :
    l.shown s = s.inlined.sql ↔
      ∃ front : String, front.utf8ByteSize = limit ∧ s.inlined.sql = front ++ "..." := by
  have hfront := isLongestFront_truncate s.inlined.sql limit
  rw [shown_of_long hlimit h]
  constructor
  · intro heq
    refine ⟨truncate s.inlined.sql limit, ?_, heq.symm⟩
    -- a dot would have fitted into any room that is left
    have hdot : s.inlined.sql.toList
        = (truncate s.inlined.sql limit).toList ++ '.' :: ['.', '.'] := by
      have hchars := congrArg String.toList heq.symm
      rw [String.toList_append] at hchars
      exact hchars
    have hnext := hfront.lt_of_next hdot
    have hwidth : '.'.utf8Size = 1 := rfl
    have hfits := hfront.fits
    omega
  · rintro ⟨front, hfull, heq⟩
    have hprefix : front.toList <+: s.inlined.sql.toList := by
      rw [heq, String.toList_append]
      exact List.prefix_append _ _
    rw [hfront.eq_of_full hprefix hfull, heq]

/-- Cutting a text leaves the longest front of whole characters that fits: the text itself if it
fits, and otherwise one that ends at a border between two characters, with no room for the next. No
more than three bytes are gone back to find that border. The log shows a statement as it is if it
fits or is not to be cut, and otherwise its longest front with three dots behind it. These dots can
be read as the statement's own only if it ends in three dots and the limit is right before them. -/
theorem shown_cut :
    (∀ (s : String) (room : Nat),
      IsLongestFront s room (truncate s room) ∧
      (s.utf8ByteSize ≤ room → truncate s room = s) ∧
      (∀ c rest, s.toList = (truncate s room).toList ++ c :: rest →
        room < (truncate s room).utf8ByteSize + c.utf8Size) ∧
      (truncate s room).utf8ByteSize = (lastBorder s room).offset.byteIdx ∧
      (∀ border : s.Pos, border.offset.byteIdx ≤ room → border ≤ lastBorder s room) ∧
      (room < s.utf8ByteSize → room < (lastBorder s room).offset.byteIdx + 4)) ∧
    ∀ (l : LogLayer) (s : Statement),
      ((∀ limit, l.limit = some limit → s.inlined.sql.utf8ByteSize ≤ limit) →
        l.shown s = s.inlined.sql) ∧
      ∀ limit, l.limit = some limit → limit < s.inlined.sql.utf8ByteSize →
        (∃ front, IsLongestFront s.inlined.sql limit front ∧ l.shown s = front ++ "...") ∧
        (l.shown s = s.inlined.sql ↔
          ∃ front : String, front.utf8ByteSize = limit ∧ s.inlined.sql = front ++ "...") := by
  constructor
  · intro s room
    have hfront := isLongestFront_truncate s room
    refine ⟨hfront, fun hfits => if_pos hfits, fun c rest => hfront.lt_of_next,
      utf8ByteSize_truncate s room, le_lastBorder, lt_lastBorder_add_four⟩
  · intro l s
    refine ⟨shown_of_fits, fun limit hlimit hlong => ⟨?_, shown_eq_iff_of_long hlimit hlong⟩⟩
    exact ⟨_, isLongestFront_truncate _ limit, shown_of_long hlimit hlong⟩

/-- A statement of eleven bytes that ends in dots. -/
def dotted : Statement := ⟨"SELECT a...", []⟩

/-- What is shown need not tell that it was cut: behind the first eight bytes of this statement the
log puts three dots in place of the three that it cuts off. So the statement is shown as it is, and
still does not fit. -/
theorem shown_dotted :
    ¬(LogLayer.shown { limit := some 8 } dotted = dotted.inlined.sql ↔
      dotted.inlined.sql.utf8ByteSize ≤ 8) := by
  have hshown : LogLayer.shown { limit := some 8 } dotted = dotted.inlined.sql := by
    decide +kernel
  have hlong : ¬dotted.inlined.sql.utf8ByteSize ≤ 8 := by decide +kernel
  intro hiff
  exact hlong (hiff.1 hshown)

/-- A cut within the two bytes of a character, and one that leaves a statement as it was. -/
theorem shown_cut_accented :
    (truncate "héllo" 2 = "h" ∧ 2 < (truncate "héllo" 2).utf8ByteSize + 'é'.utf8Size) ∧
    (∃ front, IsLongestFront "SELECT 'é'" 9 front ∧
      LogLayer.shown { limit := some 9 } ⟨"SELECT ?", [.text "é"]⟩ = front ++ "...") ∧
    LogLayer.shown { limit := some 8 } dotted = "SELECT a..." := by
  obtain ⟨hcut, hshown⟩ := shown_cut
  obtain ⟨-, -, hnext, -⟩ := hcut "héllo" 2
  have htruncate : truncate "héllo" 2 = "h" := by decide +kernel
  refine ⟨⟨htruncate, hnext 'é' "llo".toList (by rw [htruncate]; decide)⟩, ?_, ?_⟩
  · exact ((hshown { limit := some 9 } ⟨"SELECT ?", [.text "é"]⟩).2 9 rfl (by decide +kernel)).1
  · have hsame := ((hshown { limit := some 8 } dotted).2 8 rfl (by decide +kernel)).2
    exact hsame.2 ⟨"SELECT a", by decide, by decide⟩

end LogLayer

end Sqlwright
