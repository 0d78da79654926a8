import Sqlwright.Proofs.Rendering

/-!
# Texts that a pattern matches

In a pattern of `LIKE` a percent sign stands for any sequence of characters, an underscore for any
one, and a backslash takes the character behind it as it is; a backslash that ends the pattern
stands for itself. Three forms of the pattern operators build their pattern from a part of the text
to be found, by a percent sign behind it, in front of it, or both. The part is not escaped, so a
text passes if it has, at that place, something that the part matches as a pattern of its own. That
is the part itself, for every text, exactly if none of its characters has a meaning in patterns
(`Condition.admits_like`).
-/

namespace Sqlwright

/-! ## Patterns -/

/-- A piece of a pattern. -/
inductive Wildcard where
  /-- Any sequence of characters. -/
  | many
  /-- Any one character. -/
  | one
  | char (c : Char)
  deriving DecidableEq, Repr

namespace Wildcard

/-- The piece of a character that no backslash stands in front of. -/
def ofChar (c : Char) : Wildcard := if c = '%' then .many else if c = '_' then .one else .char c

/-- The pieces of a pattern. -/
def pieces : List Char → List Wildcard
  | [] => []
  | '\\' :: c :: cs => .char c :: pieces cs
  | c :: cs => ofChar c :: pieces cs

/-- Pieces that match a text. -/
inductive Matches : List Wildcard → List Char → Prop where
  | nil : Matches [] []
  | many (skipped : List Char) {ps : List Wildcard} {cs : List Char} (h : Matches ps cs) :
      Matches (.many :: ps) (skipped ++ cs)
  | one (c : Char) {ps : List Wildcard} {cs : List Char} (h : Matches ps cs) :
      Matches (.one :: ps) (c :: cs)
  | char (c : Char) {ps : List Wildcard} {cs : List Char} (h : Matches ps cs) :
      Matches (.char c :: ps) (c :: cs)

theorem matches_append_iff {ps qs : List Wildcard} {t : List Char} :
    Matches (ps ++ qs) t ↔
      ∃ front back, Matches ps front ∧ Matches qs back ∧ front ++ back = t := by
  constructor
  · intro h
    induction ps generalizing t with
    | nil => exact ⟨[], t, .nil, h, rfl⟩
    | cons p ps ih =>
      rw [List.cons_append] at h
      cases h with
      | many skipped h =>
        obtain ⟨front, back, hfront, hback, rfl⟩ := ih h
        exact ⟨skipped ++ front, back, .many skipped hfront, hback, List.append_assoc ..⟩
      | one c h =>
        obtain ⟨front, back, hfront, hback, rfl⟩ := ih h
        exact ⟨c :: front, back, .one c hfront, hback, rfl⟩
      | char c h =>
        obtain ⟨front, back, hfront, hback, rfl⟩ := ih h
        exact ⟨c :: front, back, .char c hfront, hback, rfl⟩
  · rintro ⟨front, back, hfront, hback, rfl⟩
    induction hfront with
    | nil => exact hback
    | many skipped h ih =>
      rw [List.append_assoc]
      exact .many skipped ih
    | one c h ih => exact .one c ih
    | char c h ih => exact .char c ih

theorem matches_many_cons_iff {ps : List Wildcard} {t : List Char} :
    Matches (.many :: ps) t ↔ ∃ part, part <:+ t ∧ Matches ps part := by
  constructor
  · intro h
    cases h with
    | many skipped h => exact ⟨_, List.suffix_append .., h⟩
  · rintro ⟨part, ⟨skipped, rfl⟩, h⟩
    exact .many skipped h

theorem matches_append_many_iff {ps : List Wildcard} {t : List Char} :
    Matches (ps ++ [.many]) t ↔ ∃ part, part <+: t ∧ Matches ps part := by
  rw [matches_append_iff]
  constructor
  · rintro ⟨part, rest, h, -, rfl⟩
    exact ⟨part, List.prefix_append .., h⟩
  · rintro ⟨part, ⟨rest, rfl⟩, h⟩
    have hrest : Matches [.many] rest := by simpa using Matches.many rest .nil
    exact ⟨part, rest, h, hrest, rfl⟩

/-- Characters match themselves alone. -/
theorem matches_chars_iff {cs t : List Char} : Matches (cs.map .char) t ↔ t = cs := by
  constructor
  · intro h
    induction cs generalizing t with
    | nil =>
      cases h
      rfl
    | cons c cs ih =>
      cases h with
      | char _ h => rw [ih h]
  · rintro rfl
    induction t with
    | nil => exact .nil
    | cons c cs ih => exact .char c ih

/-! ## Characters with a meaning -/

/-- The characters that have a meaning in patterns. -/
def special : List Char := ['%', '_', '\\']

/-- Nothing but characters that stand for themselves. -/
def IsPlain (cs : List Char) : Prop := ∀ c ∈ cs, c ∉ special

/-- Whether a pattern ends with a backslash that would take a character behind it. -/
def isOpen : List Char → Bool
  | [] => false
  | ['\\'] => true
  | '\\' :: _ :: cs => isOpen cs
  | _ :: cs => isOpen cs

theorem pieces_cons {c : Char} (hc : c ≠ '\\') (cs : List Char) :
    pieces (c :: cs) = ofChar c :: pieces cs := by
  rw [pieces]
  intro d ds h
  exact absurd h hc

/-- Induction along the reading of a pattern: a backslash is taken together with the character
behind it. -/
@[elab_as_elim] theorem escape_induction {P : List Char → Prop} (nil : P []) (last : P ['\\'])
    (escaped : ∀ c cs, P cs → P ('\\' :: c :: cs)) (char : ∀ c cs, c ≠ '\\' → P cs → P (c :: cs))
    (cs : List Char) : P cs := by
  fun_induction isOpen cs with
  | case1 => exact nil
  | case2 => exact last
  | case3 c cs ih => exact escaped c cs ih
  | case4 c cs hlast hmore ih =>
    refine char c cs (fun hc => ?_) ih
    cases cs with
    | nil => exact hlast hc rfl
    | cons d cs => exact hmore d cs hc rfl

theorem isOpen_cons {c : Char} (hc : c ≠ '\\') (cs : List Char) : isOpen (c :: cs) = isOpen cs := by
  rw [isOpen]
  · exact fun h => absurd h hc
  · exact fun _ _ h => absurd h hc

theorem ofChar_of_not_special {c : Char} (hc : c ∉ special) : ofChar c = .char c := by
  simp only [special, List.mem_cons, not_or] at hc
  rw [ofChar, if_neg hc.1, if_neg hc.2.1]

theorem ne_backslash_of_not_special {c : Char} (hc : c ∉ special) : c ≠ '\\' := by
  rintro rfl
  exact hc (by decide)

/-- What comes behind a pattern is read on its own, unless the pattern ends with an open
backslash. -/
theorem pieces_append {cs : List Char} (h : isOpen cs = false) (ds : List Char) :
    pieces (cs ++ ds) = pieces cs ++ pieces ds := by
  induction cs using escape_induction with
  | nil => rfl
  | last => cases h
  | escaped c cs ih =>
    rw [List.cons_append, List.cons_append, pieces, pieces, ih h, List.cons_append]
  | char c cs hc ih =>
    rw [isOpen_cons hc] at h
    rw [List.cons_append, pieces_cons hc, pieces_cons hc, ih h, List.cons_append]

theorem IsPlain.tail {c : Char} {cs : List Char} (h : IsPlain (c :: cs)) : IsPlain cs :=
  fun d hd => h d (List.mem_cons_of_mem c hd)

theorem IsPlain.pieces_append {cs : List Char} (h : IsPlain cs) (ds : List Char) :
    pieces (cs ++ ds) = cs.map .char ++ pieces ds := by
  induction cs with
  | nil => rfl
  | cons c cs ih =>
    have hc := h c List.mem_cons_self
    rw [List.cons_append, pieces_cons (ne_backslash_of_not_special hc), ofChar_of_not_special hc,
      ih h.tail, List.map_cons, List.cons_append]

/-! ## The shortest text that a pattern matches -/

/-- A text that pieces match, with as few characters as possible. -/
def sample : List Wildcard → List Char
  | [] => []
  | .many :: ps => sample ps
  | .one :: ps => 'x' :: sample ps
  | .char c :: ps => c :: sample ps

theorem matches_sample (ps : List Wildcard) : Matches ps (sample ps) := by
  induction ps with
  | nil => exact .nil
  | cons p ps ih =>
    cases p with
    | many => exact .many [] ih
    | one => exact .one 'x' ih
    | char c => exact .char c ih

/-- Text that stands for itself in front of `tail`: none of its characters has a meaning, but for a
backslash at the end of the pattern. -/
def IsLiteral (tail cs : List Char) : Prop :=
  IsPlain cs ∨ tail = [] ∧ ∃ front, IsPlain front ∧ cs = front ++ ['\\']

theorem pieces_of_isLiteral {tail cs : List Char} (h : IsLiteral tail cs) :
    pieces (cs ++ tail) = cs.map .char ++ pieces tail := by
  rcases h with h | ⟨rfl, front, hfront, rfl⟩
  · exact h.pieces_append tail
  · rw [List.append_nil, hfront.pieces_append, List.map_append, List.append_assoc]
    rfl

/-- A percent sign and a backslash ask for no character of their own. -/
theorem length_sample_le {tail : List Char} (ht : tail = [] ∨ tail = ['%']) (cs : List Char) :
    (sample (pieces (cs ++ tail))).length ≤ cs.length := by
  induction cs using escape_induction with
  | nil => rcases ht with rfl | rfl <;> decide
  | last => rcases ht with rfl | rfl <;> decide
  | escaped c cs ih =>
    rw [List.cons_append, List.cons_append, pieces, sample, List.length_cons, List.length_cons,
      List.length_cons]
    omega
  | char c cs hc ih =>
    rw [List.cons_append, pieces_cons hc, ofChar]
    split
    · rw [sample, List.length_cons]
      omega
    · split
      · exact Nat.succ_le_succ ih
      · exact Nat.succ_le_succ ih

/-- Text that is its own shortest match stands for itself. -/
theorem isLiteral_of_sample {tail : List Char} (ht : tail = [] ∨ tail = ['%']) {cs : List Char}
    (h : sample (pieces (cs ++ tail)) = cs) : IsLiteral tail cs := by
  induction cs using escape_induction with
  | nil => exact .inl nofun
  | last =>
    rcases ht with rfl | rfl
    · exact .inr ⟨rfl, [], nofun, rfl⟩
    · exact absurd h (by decide)
  | escaped c cs ih =>
    -- the backslash is missing from the sample
    have hlength := congrArg List.length h
    have hle := length_sample_le ht cs
    rw [List.cons_append, List.cons_append, pieces, sample, List.length_cons, List.length_cons,
      List.length_cons] at hlength
    omega
  | char c cs hc ih =>
    rw [List.cons_append, pieces_cons hc, ofChar] at h
    split at h
    · have hlength := congrArg List.length h
      have hle := length_sample_le ht cs
      rw [sample, List.length_cons] at hlength
      omega
    · rename_i hmany
      split at h
      · rename_i hone
        subst hone
        exact absurd (List.cons.inj h).1 (by decide)
      · rename_i hone
        have hspecial : c ∉ special := by simp [special, hmany, hone, hc]
        rcases ih (List.cons.inj h).2 with hplain | ⟨rfl, front, hfront, rfl⟩
        · exact .inl (List.forall_mem_cons.2 ⟨hspecial, hplain⟩)
        · exact .inr ⟨rfl, c :: front, List.forall_mem_cons.2 ⟨hspecial, hfront⟩, rfl⟩

end Wildcard

namespace Condition

open Wildcard

/-! ## Pattern operators -/

namespace Pattern

/-- The text that a pattern is built around. -/
def part : Pattern → String
  | verbatim s | contains s | startsWith s | endsWith s => s

/-- What a pattern has in front of its part. -/
def before : Pattern → List Char
  | contains _ | endsWith _ => ['%']
  | verbatim _ | startsWith _ => []

/-- What a pattern has behind its part. -/
def after : Pattern → List Char
  | contains _ | startsWith _ => ['%']
  | verbatim _ | endsWith _ => []

/-- The pattern as it is bound. -/
def chars (pattern : Pattern) : List Char :=
  pattern.before ++ (pattern.part.toList ++ pattern.after)

/-- Whether something stands where a pattern looks for its part. -/
def Locates : Pattern → List Char → List Char → Prop
  | verbatim _, found, t => found = t
  | contains _, found, t => found <:+: t
  | startsWith _, found, t => found <+: t
  | endsWith _, found, t => found <:+ t

theorem text_eq (keyword : String) {pattern : Pattern} (h : pattern.part ≠ "") :
    pattern.text keyword = .ok (String.ofList pattern.chars) := by
  cases pattern with
  | verbatim s => simp [text, chars, before, part, after]
  | contains s | startsWith s | endsWith s =>
    have hs : s ≠ "" := h
    simp [text, chars, before, part, after, hs, ← String.toList_inj]

theorem after_eq (pattern : Pattern) : pattern.after = [] ∨ pattern.after = ['%'] := by
  cases pattern with
  | verbatim | endsWith => exact .inl rfl
  | contains | startsWith => exact .inr rfl

/-- A text matches if what the part asks for stands in its place. -/
theorem matches_chars_iff_of_pieces {pattern : Pattern} {ps : List Wildcard}
    (h : pieces (pattern.part.toList ++ pattern.after) = ps ++ pieces pattern.after)
    (t : List Char) :
    Matches (pieces pattern.chars) t ↔ ∃ found, pattern.Locates found t ∧ Matches ps found := by
  cases pattern with
  | verbatim s =>
    have hpieces : pieces (verbatim s).chars = ps := h.trans (List.append_nil ps)
    rw [hpieces]
    simp [Locates]
  | contains s =>
    have hpieces : pieces (contains s).chars = .many :: (ps ++ [.many]) :=
      congrArg (Wildcard.many :: ·) h
    rw [hpieces, matches_many_cons_iff]
    simp only [matches_append_many_iff, Locates, List.infix_iff_prefix_suffix]
    constructor
    · rintro ⟨rest, hrest, found, hfound, hm⟩
      exact ⟨found, ⟨rest, hfound, hrest⟩, hm⟩
    · rintro ⟨found, ⟨rest, hfound, hrest⟩, hm⟩
      exact ⟨rest, hrest, found, hfound, hm⟩
  | startsWith s =>
    have hpieces : pieces (startsWith s).chars = ps ++ [.many] := h
    rw [hpieces]
    exact matches_append_many_iff
  | endsWith s =>
    have hpieces : pieces (endsWith s).chars = .many :: ps :=
      congrArg (Wildcard.many :: ·) (h.trans (List.append_nil ps))
    rw [hpieces]
    exact matches_many_cons_iff

/-- Whether the characters of the part stand for themselves: none has a meaning in patterns, but for
a backslash at the end of the pattern. -/
def IsLiteral (pattern : Pattern) : Prop := Wildcard.IsLiteral pattern.after pattern.part.toList

theorem matches_chars_of_isLiteral {pattern : Pattern} (h : pattern.IsLiteral) (t : List Char) :
    Matches (pieces pattern.chars) t ↔ pattern.Locates pattern.part.toList t := by
  rw [matches_chars_iff_of_pieces (pieces_of_isLiteral h)]
  simp only [Wildcard.matches_chars_iff]
  constructor
  · rintro ⟨_, hl, rfl⟩
    exact hl
  · exact fun hl => ⟨_, hl, rfl⟩

theorem Locates.isInfix {pattern : Pattern} {found t : List Char} (h : pattern.Locates found t) :
    found <:+: t := by
  cases pattern with
  | verbatim s => exact h ▸ List.infix_rfl
  | contains s => exact h
  | startsWith s => exact List.IsPrefix.isInfix h
  | endsWith s => exact List.IsSuffix.isInfix h

/-- A pattern that asks for its part and nothing else stands for itself. -/
theorem isLiteral_of_forall_matches {pattern : Pattern}
    (h : ∀ t, Matches (pieces pattern.chars) t ↔ pattern.Locates pattern.part.toList t) :
    pattern.IsLiteral := by
  -- the shortest text that the pattern matches has the part, and no more characters than it
  have hshort := length_sample_le pattern.after_eq pattern.part.toList
  have hsample : sample (pieces pattern.chars)
      = sample (pieces (pattern.part.toList ++ pattern.after)) := by
    cases pattern <;> rfl
  have hwithin := ((h _).1 (matches_sample _)).isInfix
  rw [hsample] at hwithin
  exact isLiteral_of_sample pattern.after_eq (hwithin.eq_of_length_le hshort).symm

end Pattern

/-- What the server answers for a column that holds a text. -/
inductive Admits (column : String) (f : Fragment) (t : String) : Prop where
  | like (pattern : String) (sql : f.sql = column ++ " LIKE ?")
      (params : f.params = [.text pattern]) (h : Matches (pieces pattern.toList) t.toList)
  | notLike (pattern : String) (sql : f.sql = column ++ " NOT LIKE ?")
      (params : f.params = [.text pattern]) (h : ¬Matches (pieces pattern.toList) t.toList)

/-- The fragment of a pattern operator. -/
def likeFragment (column : String) (negated : Bool) (pattern : String) : Fragment :=
  ⟨column ++ (if negated then " NOT LIKE ?" else " LIKE ?"), [.text pattern]⟩

theorem fragment_like {pattern : Pattern} (h : pattern.part ≠ "") (column : String)
    (negated : Bool) :
    (Op.like negated pattern).fragment column
      = .ok (likeFragment column negated (String.ofList pattern.chars)) := by
  rw [Op.fragment, Pattern.text_eq _ h]
  cases negated <;> simp [likeFragment, String.append_assoc, bind, Except.bind, pure, Except.pure]

theorem admits_likeFragment_iff {column pattern : String} {negated : Bool} {t : String} :
    Admits column (likeFragment column negated pattern) t ↔
      (Matches (pieces pattern.toList) t.toList ↔ negated = false) := by
  have hwords : column ++ " LIKE ?" ≠ column ++ " NOT LIKE ?" := by
    rw [ne_eq, String.append_right_inj]
    decide
  cases negated with
  | false =>
    constructor
    · rintro (⟨_, -, ⟨⟩, h⟩ | ⟨_, sql, -, -⟩)
      · simpa using h
      · exact absurd sql hwords
    · intro h
      exact .like pattern rfl rfl (h.2 rfl)
  | true =>
    constructor
    · rintro (⟨_, sql, -, -⟩ | ⟨_, -, ⟨⟩, h⟩)
      · exact absurd sql.symm hwords
      · simpa using h
    · intro h
      exact .notLike pattern rfl rfl (by simpa using h)

/-- A pattern operator admits a text if something stands in its place that the part matches as a
pattern, and refuses it if it is negated. For every text that is the part itself exactly if its
characters stand for themselves. -/
theorem admits_like {pattern : Pattern} (h : pattern.part ≠ "") (column : String)
    (negated : Bool) :
    ∃ f, (Op.like negated pattern).fragment column = .ok f ∧
      f.params = [.text (String.ofList pattern.chars)] ∧
      (pattern.after = [] ∨ isOpen pattern.part.toList = false →
        ∀ t : String, Admits column f t ↔
          ((∃ found, pattern.Locates found t.toList ∧ Matches (pieces pattern.part.toList) found) ↔
            negated = false)) ∧
      ((∀ t : String, Admits column f t ↔
          (pattern.Locates pattern.part.toList t.toList ↔ negated = false)) ↔
        pattern.IsLiteral) := by
  refine ⟨_, fragment_like h column negated, rfl, ?_, ?_⟩
  · intro hclosed t
    have hpieces : pieces (pattern.part.toList ++ pattern.after)
        = pieces pattern.part.toList ++ pieces pattern.after := by
      rcases hclosed with hafter | hopen
      · rw [hafter]
        simp [pieces]
      · exact pieces_append hopen _
    rw [admits_likeFragment_iff, String.toList_ofList, Pattern.matches_chars_iff_of_pieces hpieces]
  · simp only [admits_likeFragment_iff, String.toList_ofList]
    constructor
    · intro hall
      refine Pattern.isLiteral_of_forall_matches fun t => ?_
      have ht := hall (String.ofList t)
      rw [String.toList_ofList] at ht
      cases negated <;> simpa [not_iff_not] using ht
    · intro hliteral t
      rw [Pattern.matches_chars_of_isLiteral hliteral]

/-- The percent sign of the part matches anything, so a text passes that does not have the part. -/
theorem admits_without_part :
    ∃ f, (Op.like false (.contains "50%")).fragment "note" = .ok f ∧
      Admits "note" f "50" ∧ ¬"50%".toList <:+: "50".toList := by
  refine ⟨_, fragment_like (by decide) "note" false, ?_, ?_⟩
  · rw [admits_likeFragment_iff, String.toList_ofList]
    exact iff_of_true (matches_sample (pieces ['%', '5', '0', '%', '%'])) rfl
  · intro h
    exact absurd (h.subset (by decide : '%' ∈ "50%".toList)) (by decide)

theorem admits_like_backslash :
    (Pattern.endsWith "C:\\").part ≠ "" ∧
      ∃ f, (Op.like true (.endsWith "C:\\")).fragment "path" = .ok f ∧
        ∀ t : String, Admits "path" f t ↔ ¬"C:\\".toList <:+ t.toList := by
  have hplain : IsPlain ['C', ':'] := by simp [IsPlain, special]
  have hliteral : (Pattern.endsWith "C:\\").IsLiteral := .inr ⟨rfl, ['C', ':'], hplain, rfl⟩
  obtain ⟨f, hf, -, -, hall⟩ :=
    @admits_like (.endsWith "C:\\") (by decide) "path" true
  refine ⟨by decide, f, hf, fun t => ?_⟩
  exact (hall.2 hliteral t).trans (iff_false_right (by decide))

end Condition

end Sqlwright
