import Mathlib.Data.List.Infix
import Sqlwright.Condition.Predicate
import Sqlwright.Proofs.Formula
import Sqlwright.Proofs.Token

/-!
# Reading a predicate

How a database reads the text of a predicate: parentheses first, then AND, then OR, with the AND of
a BETWEEN belonging to its test. What stands between the connectives is a test of its own, read no
further, unless it is one pair of parentheses around a predicate. A text that holds another
connective at its top, or a word that starts something other than a test, has no reading.

Texts put next to each other with a connective between them are read side by side
(`phrase?_append`), and a text in parentheses is read as one part (`phrase?_parenthesized`).
-/

namespace Sqlwright.Condition

/-- A test as it is worded. -/
abbrev Wording := List Token

/-- What a token does to the predicate it stands in. -/
inductive Role where
  | connective (c : Connective)
  /-- Takes the next AND for itself. -/
  | range
  | plain
  /-- Does not occur at the top of a predicate of tests, AND and OR. -/
  | foreign
  deriving DecidableEq, Repr

/-- The words that start or continue something other than a test. -/
def foreignWords : List (List Char) :=
  ["XOR".toList, "CASE".toList, "WHEN".toList, "THEN".toList, "ELSE".toList, "SELECT".toList,
   "UNION".toList, "FROM".toList, "WHERE".toList, "GROUP".toList, "HAVING".toList,
   "ORDER".toList, "LIMIT".toList]

/-- The role of a word, in whatever case it is written. -/
def wordRole (word : List Char) : Role :=
  let upper := word.map Char.toUpper
  if upper = "AND".toList then .connective .and
  else if upper = "OR".toList then .connective .or
  else if upper = "BETWEEN".toList then .range
  else if upper ∈ foreignWords then .foreign
  else .plain

/-- The signs that join or assign. -/
def foreignSigns : List (List Char) := ["&&".toList, "||".toList, ":=".toList, ",".toList]

def signsRole (signs : List Char) : Role :=
  if foreignSigns.any fun sign => decide (sign <:+: signs) then .foreign else .plain

def Token.role : Token → Role
  | .word text => wordRole text
  | .signs text => signsRole text
  | _ => .plain

/-! ## Parentheses -/

/-- A token, or a pair of parentheses with the predicate between them, if that is one. -/
inductive Item where
  | token (t : Token)
  | group (tokens : List Token) (reading : Option (Formula Wording))
  deriving DecidableEq, Repr

def Item.tokens : Item → List Token
  | .token t => [t]
  | .group ts _ => .opening :: ts ++ [.closing]

def Item.role : Item → Role
  | .token t => t.role
  | .group _ _ => .plain

/-- An item in front of the first part of a phrase. -/
def Phrase.push (i : Item) (p : Phrase (List Item)) : Phrase (List Item) :=
  ⟨i :: p.first, p.rest⟩

/-- The parts between the connectives. `pending` says whether a range still waits for its AND. -/
def split (pending : Bool) : List Item → Option (Phrase (List Item))
  | [] => if pending then none else some ⟨[], []⟩
  | i :: is =>
    match i.role with
    | .connective .and =>
      (split false is).map fun p => if pending then p.push i else ⟨[], (.and, p.first) :: p.rest⟩
    | .connective .or =>
      if pending then none else (split false is).map fun p => ⟨[], (.or, p.first) :: p.rest⟩
    | .range => if pending then none else (split true is).map (Phrase.push i)
    | .plain => (split pending is).map (Phrase.push i)
    | .foreign => none

/-- The formula of a part: that of its parentheses if it is nothing else, or a test. -/
def readPart : List Item → Option (Formula Wording)
  | [] => none
  | [.group _ reading] => reading
  | part => some (.test (part.flatMap Item.tokens))

/-- The parts of a phrase read one by one. -/
def readParts (p : Phrase (List Item)) : Option (Phrase (Formula Wording)) := do
  let first ← readPart p.first
  let rest ← p.rest.mapM fun link => (readPart link.2).map fun φ => (link.1, φ)
  pure ⟨first, rest⟩

def phraseOf (is : List Item) : Option (Phrase (Formula Wording)) :=
  (split false is).bind readParts

/-- Tokens from some place to the end: the items at the level of that place, and at the levels
around it, the innermost first. -/
structure Nesting where
  level : List Item
  outer : List (List Item)

def Nesting.push (t : Token) (n : Nesting) : Option Nesting :=
  match t, n.outer with
  | .closing, outer => some ⟨[], n.level :: outer⟩
  | .opening, [] => none
  | .opening, around :: outer =>
    some ⟨.group (n.level.flatMap Item.tokens) ((phraseOf n.level).map Phrase.formula) :: around,
      outer⟩
  | t, outer => some ⟨.token t :: n.level, outer⟩

def nestFrom (n : Nesting) (ts : List Token) : Option Nesting :=
  ts.foldr (fun t n => n.bind (Nesting.push t)) (some n)

/-- The items of tokens whose parentheses match. -/
def nest (ts : List Token) : Option (List Item) :=
  match nestFrom ⟨[], []⟩ ts with
  | some ⟨level, []⟩ => some level
  | _ => none

/-- Levels in front of a nesting: the outermost of them goes on into its level. -/
def graft (level : List Item) : List (List Item) → Nesting → Nesting
  | [], n => ⟨level ++ n.level, n.outer⟩
  | around :: outer, n => ⟨level, (graft around outer n).level :: (graft around outer n).outer⟩

def Nesting.before (m n : Nesting) : Nesting := graft m.level m.outer n

theorem Nesting.push_before {t : Token} {m m' : Nesting} (n : Nesting)
    (h : m.push t = some m') : (m.before n).push t = some (m'.before n) := by
  obtain ⟨level, outer⟩ := m
  cases t with
  | closing => cases h; rfl
  | opening =>
    cases outer with
    | nil => cases h
    | cons around outer => cases h; cases outer <;> rfl
  | word | signs | quoted => cases h; cases outer <;> rfl

theorem nestFrom_before {ts : List Token} {m m' : Nesting} (n : Nesting)
    (h : nestFrom m ts = some m') : nestFrom (m.before n) ts = some (m'.before n) := by
  induction ts generalizing m' with
  | nil => cases h; rfl
  | cons t ts ih =>
    obtain ⟨k, hk, hp⟩ := Option.bind_eq_some_iff.1 h
    exact Option.bind_eq_some_iff.2 ⟨k.before n, ih hk, Nesting.push_before n hp⟩

theorem nest_eq_some_iff {ts : List Token} {is : List Item} :
    nest ts = some is ↔ nestFrom ⟨[], []⟩ ts = some ⟨is, []⟩ := by
  rw [nest]
  split
  · rename_i level h
    rw [h, Option.some.injEq, Option.some.injEq, Nesting.mk.injEq]
    exact ⟨fun e => ⟨e, rfl⟩, And.left⟩
  · rename_i hne
    exact ⟨fun h => by simp at h, fun h => absurd h (hne is)⟩

/-- Tokens whose parentheses match add their items to whatever stands behind them. -/
theorem nestFrom_of_nest {ts : List Token} {is : List Item} (h : nest ts = some is)
    (n : Nesting) : nestFrom n ts = some ⟨is ++ n.level, n.outer⟩ :=
  nestFrom_before n (nest_eq_some_iff.1 h)

theorem nestFrom_append (n : Nesting) (ts us : List Token) :
    nestFrom n (ts ++ us) = (nestFrom n us).bind fun m => nestFrom m ts := by
  rw [nestFrom, List.foldr_append]
  cases h : nestFrom n us with
  | none =>
    rw [nestFrom] at h
    rw [h]
    induction ts with
    | nil => rfl
    | cons t ts ih => rw [List.foldr_cons, ih]; rfl
  | some m => rw [nestFrom] at h; rw [h]; rfl

theorem nest_append {ts us : List Token} {is js : List Item} (hi : nest ts = some is)
    (hj : nest us = some js) : nest (ts ++ us) = some (is ++ js) := by
  rw [nest_eq_some_iff, nestFrom_append, nest_eq_some_iff.1 hj, Option.bind_some,
    nestFrom_of_nest hi]

theorem nest_parenthesized {ts : List Token} {is : List Item} (h : nest ts = some is) :
    nest (.opening :: ts ++ [.closing])
      = some [.group (is.flatMap Item.tokens) ((phraseOf is).map Phrase.formula)] := by
  have hclose : nestFrom ⟨[], []⟩ [.closing] = some ⟨[], [[]]⟩ := rfl
  rw [nest_eq_some_iff, List.cons_append, nestFrom, List.foldr_cons]
  have hts : nestFrom ⟨[], []⟩ (ts ++ [.closing]) = some ⟨is, [[]]⟩ := by
    rw [nestFrom_append, hclose, Option.bind_some, nestFrom_of_nest h, List.append_nil]
  rw [nestFrom] at hts
  rw [hts]
  rfl

/-- The tokens of a nesting, from its place to the end. -/
def Nesting.tokens (n : Nesting) : List Token :=
  n.level.flatMap Item.tokens ++ n.outer.flatMap fun l => .closing :: l.flatMap Item.tokens

theorem Nesting.tokens_push {t : Token} {m n : Nesting} (h : m.push t = some n) :
    n.tokens = t :: m.tokens := by
  obtain ⟨level, outer⟩ := m
  cases t with
  | closing => cases h; simp [tokens]
  | opening =>
    cases outer with
    | nil => cases h
    | cons around outer => cases h; simp [tokens, Item.tokens]
  | word | signs | quoted => cases h; simp [tokens, Item.tokens]

theorem tokens_nestFrom {ts : List Token} {n : Nesting} (h : nestFrom ⟨[], []⟩ ts = some n) :
    n.tokens = ts := by
  induction ts generalizing n with
  | nil => cases h; rfl
  | cons t ts ih =>
    obtain ⟨m, hm, hp⟩ := Option.bind_eq_some_iff.1 h
    rw [Nesting.tokens_push hp, ih hm]

/-- Matching parentheses loses no token. -/
theorem tokens_of_nest {ts : List Token} {is : List Item} (h : nest ts = some is) :
    is.flatMap Item.tokens = ts := by
  simpa [Nesting.tokens] using tokens_nestFrom (nest_eq_some_iff.1 h)

/-- Tokens without parentheses are their own items. -/
theorem nest_of_forall {ts : List Token} (h : ∀ t ∈ ts, t ≠ .opening ∧ t ≠ .closing) :
    nest ts = some (ts.map .token) := by
  induction ts with
  | nil => rfl
  | cons t ts ih =>
    have ht : nest [t] = some [.token t] := by
      cases t with
      | opening => exact absurd rfl (h _ (by simp)).1
      | closing => exact absurd rfl (h _ (by simp)).2
      | word | signs | quoted => rfl
    exact nest_append ht (ih fun u hu => h u (by simp [hu]))

/-! ## Connectives -/

/-- Items with a connective between them are parted there. -/
theorem split_append {c : Connective} {i : Item} (hi : i.role = .connective c)
    {pending : Bool} {is js : List Item} {p q : Phrase (List Item)}
    (hp : split pending is = some p) (hq : split false js = some q) :
    split pending (is ++ i :: js) = some (p.join c q) := by
  induction is generalizing pending p with
  | nil =>
    cases pending with
    | true => cases hp
    | false => cases hp; cases c <;> simp [split, hi, hq, Phrase.join]
  | cons k is ih =>
    -- the first item decides whether a range still waits; it never waits where the text ends
    rw [List.cons_append, split]
    rw [split] at hp
    split at hp
    · obtain ⟨r, hr, rfl⟩ := Option.map_eq_some_iff.1 hp
      rw [ih hr]
      cases pending <;> rfl
    · cases pending with
      | true => cases hp
      | false =>
        obtain ⟨r, hr, rfl⟩ := Option.map_eq_some_iff.1 hp
        rw [if_neg (by simp), ih hr]
        rfl
    · cases pending with
      | true => cases hp
      | false =>
        obtain ⟨r, hr, rfl⟩ := Option.map_eq_some_iff.1 hp
        rw [if_neg (by simp), ih hr]
        rfl
    · obtain ⟨r, hr, rfl⟩ := Option.map_eq_some_iff.1 hp
      rw [ih hr]
      rfl
    · cases hp

theorem split_of_forall {is : List Item} (h : ∀ i ∈ is, i.role = .plain) :
    split false is = some ⟨is, []⟩ := by
  induction is with
  | nil => rfl
  | cons i is ih =>
    rw [split, h i (by simp)]
    simp [ih fun j hj => h j (by simp [hj]), Phrase.push]

theorem readParts_join {c : Connective} {p q : Phrase (List Item)}
    {p' q' : Phrase (Formula Wording)} (hp : readParts p = some p')
    (hq : readParts q = some q') : readParts (p.join c q) = some (p'.join c q') := by
  simp only [readParts, Option.bind_eq_bind, Option.bind_eq_some_iff, Option.pure_def,
    Option.some.injEq] at hp hq
  obtain ⟨φ, hφ, r, hr, rfl⟩ := hp
  obtain ⟨ψ, hψ, u, hu, rfl⟩ := hq
  simp [readParts, Phrase.join, hφ, hψ, hr, hu, List.mapM_append]

/-! ## Texts -/

/-- The phrase that a text shows. -/
def phrase? (s : String) : Option (Phrase (Formula Wording)) :=
  ((scan s).bind nest).bind phraseOf

/-- The formula that a text is read as. -/
def read (s : String) : Option (Formula Wording) := (phrase? s).map Phrase.formula

theorem phrase?_eq_some_iff {s : String} {p : Phrase (Formula Wording)} :
    phrase? s = some p ↔ ∃ ts is, scan s = some ts ∧ nest ts = some is ∧ phraseOf is = some p := by
  simp only [phrase?, Option.bind_eq_some_iff]
  exact ⟨fun ⟨is, ⟨ts, hs, hn⟩, hp⟩ => ⟨ts, is, hs, hn, hp⟩,
    fun ⟨ts, is, hs, hn, hp⟩ => ⟨is, ⟨ts, hs, hn⟩, hp⟩⟩

/-- Texts with a connective between them are read side by side. -/
theorem phrase?_append {s t : String} {p q : Phrase (Formula Wording)} (c : Connective)
    (hp : phrase? s = some p) (hq : phrase? t = some q) :
    phrase? (s ++ c.separator ++ t) = some (p.join c q) := by
  obtain ⟨ts, is, hs, his, hsp⟩ := phrase?_eq_some_iff.1 hp
  obtain ⟨us, js, ht, hjs, htp⟩ := phrase?_eq_some_iff.1 hq
  obtain ⟨a, ha, hap⟩ := Option.bind_eq_some_iff.1 hsp
  obtain ⟨b, hb, hbp⟩ := Option.bind_eq_some_iff.1 htp
  have hword : scan c.word = some [.word c.word.toList] := by cases c <;> rfl
  have hscan := scan_append_blank (scan_append_blank hs hword) ht
  have hitem : nest [.word c.word.toList] = some [.token (.word c.word.toList)] := rfl
  have hnest := nest_append (nest_append his hitem) hjs
  have hrole : (Item.token (.word c.word.toList)).role = .connective c := by cases c <;> rfl
  refine phrase?_eq_some_iff.2 ⟨_, _, ?_, hnest, ?_⟩
  · simpa [Connective.separator, String.append_assoc] using hscan
  · have hsplit := split_append hrole ha hb
    rw [phraseOf, List.append_assoc, List.singleton_append, hsplit]
    exact readParts_join hap hbp

theorem phrase?_intercalate {c : Connective} {s : String} {texts : List String}
    {p : Phrase (Formula Wording)} {ps : List (Phrase (Formula Wording))}
    (h : phrase? s = some p) (hs : List.Forall₂ (fun t q => phrase? t = some q) texts ps) :
    phrase? (c.separator.intercalate (s :: texts)) = some (p.joinAll c ps) := by
  induction hs generalizing s p with
  | nil => rw [String.intercalate_singleton, h]; rfl
  | cons hq _ ih =>
    rw [String.intercalate_cons_cons, phrase?_append c h (ih hq), Phrase.joinAll_cons]

theorem phrase?_parenthesized {s : String} {φ : Formula Wording} (h : read s = some φ) :
    phrase? ("(" ++ s ++ ")") = some (.one φ) := by
  obtain ⟨p, hp, rfl⟩ := Option.map_eq_some_iff.1 h
  obtain ⟨ts, is, hs, his, hp⟩ := phrase?_eq_some_iff.1 hp
  refine phrase?_eq_some_iff.2 ⟨_, _, scan_parenthesized hs, nest_parenthesized his, ?_⟩
  rw [hp]
  rfl

end Sqlwright.Condition
