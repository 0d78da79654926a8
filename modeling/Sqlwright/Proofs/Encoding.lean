import Sqlwright.Proofs.Decoding

/-!
# Trees as documents

A tree has a document of its own if each of its nodes holds every key once, its groups hold
something, its columns carry no reserved name, and its values are those of documents. Exactly such a
tree is read from some document (`expressible_iff`), and `encode` writes one that it is read from:
a value as its document, an operator under its key, a group as the list of its conditions
(`readTree_encode`).
-/

namespace Sqlwright

namespace Document

/-! ## Proper documents -/

/-- A number as it is read from a text: unsigned only if no signed word holds it, and finite. -/
def Number.IsProper : Number → Prop
  | .int _ => True
  | .uint n => Sqlwright.Number.pow2 63 ≤ n.toNat
  | .float x => ∃ negative significand exponent, x.view = .finite negative significand exponent

/-- A document whose objects hold every key once and whose numbers are proper. -/
inductive IsProper : Document → Prop where
  | null : IsProper .null
  | bool (b : Bool) : IsProper (.bool b)
  | number {n : Number} (hn : n.IsProper) : IsProper (.number n)
  | text (s : String) : IsProper (.text s)
  | list {items : List Document} (h : ∀ item ∈ items, IsProper item) : IsProper (.list items)
  | object {members : List (String × Document)} (hkeys : (members.map Prod.fst).Nodup)
      (h : ∀ m ∈ members, IsProper m.2) : IsProper (.object members)

end Document

/-! ## Values of documents -/

namespace Value

/-- The values that are read from documents. -/
def IsRepresentable : Value → Prop
  | .null | .bool _ | .int _ | .text _ => True
  | .uint n => (Document.Number.uint n).IsProper
  | .float x => (Document.Number.float x).IsProper
  | .bytes _ | .dateTime _ => False
  | .document d => d.IsProper ∧ ¬d.IsScalar

/-- The document of a value. Octets and times have none. -/
def toDocument : Value → Document
  | .bool b => .bool b
  | .int n => .number (.int n)
  | .uint n => .number (.uint n)
  | .float x => .number (.float x)
  | .text s => .text s
  | .document d => d
  | .null | .bytes _ | .dateTime _ => .null

theorem isRepresentable_ofDocument {d : Document} (hd : d.IsProper) :
    (ofDocument d).IsRepresentable := by
  cases hd with
  | null | bool b | text s => trivial
  | number hn =>
    rename_i n
    cases n with
    | int n => trivial
    | uint n | float x => exact hn
  | list h => exact ⟨.list h, nofun⟩
  | object hkeys h => exact ⟨.object hkeys h, nofun⟩

variable {v : Value}

theorem IsRepresentable.ofDocument_toDocument (hv : v.IsRepresentable) :
    ofDocument v.toDocument = v := by
  cases v with
  | null | bool b | int n | uint n | float x | text s => rfl
  | bytes octets | dateTime t => exact hv.elim
  | document d =>
    -- lists and objects are their own values, a scalar kept as a document is not
    cases d with
    | list items | object members => rfl
    | null | bool b | number n | text s => exact absurd (by constructor) hv.2

theorem IsRepresentable.isProper_toDocument (hv : v.IsRepresentable) :
    v.toDocument.IsProper := by
  cases v with
  | null => exact .null
  | bool b => exact .bool b
  | int n | uint n | float x => exact .number hv
  | text s => exact .text s
  | bytes octets | dateTime t => exact hv.elim
  | document d => exact hv.1

/-- A value other than a list or an object. -/
def IsScalar (v : Value) : Prop := ∀ d, v ≠ .document d

theorem isScalar_ofDocument {d : Document} (hd : d.IsScalar) : (ofDocument d).IsScalar := by
  intro e h
  cases hd with
  | null | bool b | text s => cases h
  | number n => cases n <;> cases h

theorem IsScalar.isScalar_toDocument (hv : v.IsScalar) : v.toDocument.IsScalar := by
  cases v with
  | document d => exact absurd rfl (hv d)
  | null | bool b | int n | uint n | float x | text s | bytes octets | dateTime t => constructor

end Value

namespace Condition

/-! ## Trees that have a document -/

/-- An operator whose values are representable. -/
def Op.Expressible : Op → Prop
  | .compare _ v | .regexp v | .isNull _ v => v.IsRepresentable
  | .like _ _ => True
  | .oneOf _ vs | .between _ vs => ∀ v ∈ vs, v.IsRepresentable

/-- A test with a document of its own. -/
inductive Test.Expressible : Test → Prop where
  | value {v : Value} (hv : v.IsRepresentable) (hscalar : v.IsScalar) : Expressible (.value v)
  | oneOf {vs : List Value} (h : ∀ v ∈ vs, v.IsRepresentable) : Expressible (.oneOf vs)
  | ops {operators : List Op} (hkeys : (operators.map Op.key).Nodup)
      (h : ∀ op ∈ operators, op.Expressible) : Expressible (.ops operators)

/-- The key of an entry in a condition document. -/
def Entry.key : Entry → String
  | .column name _ => name
  | .group c _ => c.word
  | .raw _ _ => "RAW"

mutual

/-- A tree with a document of its own. -/
inductive Expressible : Tree → Prop where
  | node {entries : List Entry} (hkeys : (entries.map Entry.key).Nodup)
      (h : ∀ entry ∈ entries, entry.Expressible) : Expressible entries

/-- An entry that a member of a document can hold. -/
inductive Entry.Expressible : Entry → Prop where
  | column {name : String} {test : Test} (hname : name ∉ reservedKeys)
      (htest : test.Expressible) : Entry.Expressible (.column name test)
  | group {c : Connective} {children : List (List Entry)} (hchildren : children ≠ [])
      (h : ∀ child ∈ children, Expressible child) : Entry.Expressible (.group c children)
  | raw {sql : String} {params : List Value} (h : ∀ v ∈ params, v.IsRepresentable) :
      Entry.Expressible (.raw sql params)

end

/-! ## The document of a tree -/

/-- The document of a pattern. -/
def Pattern.encode : Pattern → Document
  | .verbatim s => .text s
  | .contains s => .object [("contains", .text s)]
  | .startsWith s => .object [("startsWith", .text s)]
  | .endsWith s => .object [("endsWith", .text s)]

/-- The list of the documents of some values. -/
def encodeValues (vs : List Value) : Document := .list (vs.map Value.toDocument)

/-- The document of an operator's payload. -/
def Op.encode : Op → Document
  | .compare _ v | .regexp v | .isNull _ v => v.toDocument
  | .like _ pattern => pattern.encode
  | .oneOf _ vs | .between _ vs => encodeValues vs

/-- The document of a test. -/
def Test.encode : Test → Document
  | .value v => v.toDocument
  | .oneOf vs => encodeValues vs
  | .ops operators => .object (operators.map fun op => (op.key, op.encode))

mutual

/-- The document of an entry, under its key. -/
def Entry.encode : Entry → Document
  | .column _ test => test.encode
  | .group _ children => .list (encodeChildren children)
  | .raw sql params =>
    if params.isEmpty then .text sql
    else .object [("sql", .text sql), ("params", encodeValues params)]

/-- The members of a condition object. -/
def encodeEntries : List Entry → List (String × Document)
  | [] => []
  | entry :: rest => (entry.key, entry.encode) :: encodeEntries rest

/-- The documents of several conditions. -/
def encodeChildren : List (List Entry) → List Document
  | [] => []
  | child :: rest => .object (encodeEntries child) :: encodeChildren rest

end

/-- The document of a tree. -/
def encode (tree : Tree) : Document := .object (encodeEntries tree)

theorem encodeEntries_eq_map (entries : List Entry) :
    encodeEntries entries = entries.map fun entry => (entry.key, entry.encode) := by
  induction entries with
  | nil => rfl
  | cons entry rest ih => rw [encodeEntries, ih, List.map_cons]

theorem encodeChildren_eq_map (children : List (List Entry)) :
    encodeChildren children = children.map encode := by
  induction children with
  | nil => rfl
  | cons child rest ih => rw [encodeChildren, ih, List.map_cons, encode]

/-! ## The document of a tree means the tree -/

theorem isProper_encodeValues {vs : List Value} (h : ∀ v ∈ vs, v.IsRepresentable) :
    (encodeValues vs).IsProper := by
  refine .list fun d hd => ?_
  obtain ⟨v, hv, rfl⟩ := List.mem_map.1 hd
  exact (h v hv).isProper_toDocument

theorem map_ofDocument_toDocument {vs : List Value} (h : ∀ v ∈ vs, v.IsRepresentable) :
    vs = (vs.map Value.toDocument).map Value.ofDocument := by
  rw [List.map_map]
  refine (List.map_id vs).symm.trans (List.map_congr_left fun v hv => ?_)
  exact (h v hv).ofDocument_toDocument.symm

/-- A form alone in its object. -/
theorem Pattern.meant_singleton (form : String × (String → Pattern)) (hform : form ∈ forms)
    (s : String) : (form.2 s).Meant (.object [(form.1, .text s)]) := by
  refine .text hform ⟨List.mem_map_of_mem hform, by simp [Document.member?], ?_⟩
  intro other _ h
  simpa using Keyed.exists_lookup_iff.1 (Option.isSome_iff_exists.1 h)

theorem Pattern.meant_encode (pattern : Pattern) : pattern.Meant pattern.encode := by
  cases pattern with
  | verbatim s => exact .verbatim s
  | contains s => exact meant_singleton ("contains", .contains) (by simp [forms]) s
  | startsWith s => exact meant_singleton ("startsWith", .startsWith) (by simp [forms]) s
  | endsWith s => exact meant_singleton ("endsWith", .endsWith) (by simp [forms]) s

theorem Pattern.isProper_encode (pattern : Pattern) : pattern.encode.IsProper := by
  cases pattern with
  | verbatim s => exact .text s
  | contains s | startsWith s | endsWith s =>
    exact .object (List.nodup_singleton _) (List.forall_mem_singleton.2 (.text s))

theorem Op.Expressible.meant_encode {op : Op} (h : op.Expressible) : op.Meant op.encode := by
  cases op with
  | compare relation v | regexp v | isNull negated v => exact h.ofDocument_toDocument.symm
  | like negated pattern => exact pattern.meant_encode
  | oneOf negated vs | between negated vs => exact ⟨_, rfl, map_ofDocument_toDocument h⟩

theorem Op.Expressible.isProper_encode {op : Op} (h : op.Expressible) : op.encode.IsProper := by
  cases op with
  | compare relation v | regexp v | isNull negated v => exact h.isProper_toDocument
  | like negated pattern => exact pattern.isProper_encode
  | oneOf negated vs | between negated vs => exact isProper_encodeValues h

theorem Test.Expressible.meant_encode {test : Test} (h : test.Expressible) :
    test.Meant test.encode := by
  cases h with
  | value hv hscalar =>
    have h := Test.Meant.scalar hscalar.isScalar_toDocument
    rwa [hv.ofDocument_toDocument] at h
  | oneOf h =>
    rename_i vs
    have hmeant := Test.Meant.list (vs.map Value.toDocument)
    rwa [← map_ofDocument_toDocument h] at hmeant
  | ops hkeys h =>
    refine .object (List.forall₂_map_left_iff.2 (List.forall₂_same.2 fun op hop => ?_))
    exact ⟨rfl, (h op hop).meant_encode⟩

theorem Test.Expressible.isProper_encode {test : Test} (h : test.Expressible) :
    test.encode.IsProper := by
  cases h with
  | value hv hscalar => exact hv.isProper_toDocument
  | oneOf h => exact isProper_encodeValues h
  | ops hkeys h =>
    refine .object ?_ (List.forall_mem_map.2 fun op hop => (h op hop).isProper_encode)
    rw [List.map_map]
    exact hkeys

theorem rawMeans_encode {sql : String} {params : List Value}
    (h : ∀ v ∈ params, v.IsRepresentable) :
    RawMeans (Entry.raw sql params).encode (.raw sql params) := by
  rw [Entry.encode]
  split
  · rename_i hparams
    obtain rfl := List.isEmpty_iff.1 hparams
    exact .text sql
  · have hmeant : RawMeans (.object [("sql", .text sql), ("params", encodeValues params)])
        (.raw sql ((params.map Value.toDocument).map .ofDocument)) := .full rfl rfl
    rwa [← map_ofDocument_toDocument h] at hmeant

theorem isProper_encode_raw {sql : String} {params : List Value}
    (h : ∀ v ∈ params, v.IsRepresentable) : (Entry.raw sql params).encode.IsProper := by
  rw [Entry.encode]
  split
  · exact .text sql
  · refine .object (by simp) (List.forall_mem_cons.2 ⟨.text sql, ?_⟩)
    exact List.forall_mem_singleton.2 (isProper_encodeValues h)

mutual

/-- The document of a tree means it. -/
theorem Expressible.means_encode {tree : Tree} : Expressible tree → Means (encode tree) tree
  | .node hkeys h => by
    refine .object ?_
    rw [encodeEntries_eq_map, List.forall₂_map_left_iff, List.forall₂_same]
    exact fun entry hentry => (h entry hentry).entryMeans_encode

theorem Entry.Expressible.entryMeans_encode {entry : Entry} :
    entry.Expressible → EntryMeans (entry.key, entry.encode) entry
  | .column hname htest => .column hname htest.meant_encode
  | .group hchildren h => by
    rw [Entry.encode]
    refine .group (by rw [encodeChildren_eq_map]; simpa using hchildren) ?_
    rw [encodeChildren_eq_map, List.forall₂_map_left_iff, List.forall₂_same]
    exact fun child hchild => (h child hchild).means_encode
  | .raw h => .raw (rawMeans_encode h)

end

mutual

theorem Expressible.isProper_encode {tree : Tree} : Expressible tree → (encode tree).IsProper
  | .node hkeys h => by
    rw [encode, encodeEntries_eq_map]
    refine .object ?_ (List.forall_mem_map.2 fun entry hentry => (h entry hentry).isProper_encode)
    rw [List.map_map]
    exact hkeys

theorem Entry.Expressible.isProper_encode {entry : Entry} :
    entry.Expressible → entry.encode.IsProper
  | .column hname htest => htest.isProper_encode
  | .group hchildren h => by
    rw [Entry.encode, encodeChildren_eq_map]
    exact .list (List.forall_mem_map.2 fun child hchild => (h child hchild).isProper_encode)
  | .raw h => isProper_encode_raw h

end

/-- A tree with a document of its own is read from it. -/
theorem readTree_encode {tree : Tree} (h : Expressible tree) : readTree (encode tree) = .ok tree :=
  (readTree_eq_ok_iff _).2 h.means_encode

/-! ## What a proper document means has a document of its own -/

/-- Each element of the second list has a partner in the first. -/
theorem exists_mem_of_forall₂ {α β : Type} {S : α → β → Prop} {as : List α} {bs : List β}
    (h : List.Forall₂ S as bs) : ∀ b ∈ bs, ∃ a ∈ as, S a b := by
  have hmem : List.Forall₂ (fun a b => a ∈ as ∧ S a b) as bs :=
    (List.forall₂_and_left as bs).2 ⟨fun a ha => ha, h⟩
  exact exists_forall₂_iff.1 ⟨as, hmem.flip⟩

theorem isRepresentable_of_mem_map {items : List Document} (h : (Document.list items).IsProper) :
    ∀ v ∈ items.map Value.ofDocument, v.IsRepresentable := by
  cases h with
  | list h =>
    exact List.forall_mem_map.2 fun item hitem => Value.isRepresentable_ofDocument (h item hitem)

theorem Op.expressible_of_meant {d : Document} {op : Op} (hd : d.IsProper) (h : op.Meant d) :
    op.Expressible := by
  cases op with
  | compare relation v | regexp v | isNull negated v =>
    obtain rfl : v = .ofDocument d := h
    exact Value.isRepresentable_ofDocument hd
  | like negated pattern => trivial
  | oneOf negated vs | between negated vs =>
    obtain ⟨items, rfl, rfl⟩ := h
    exact isRepresentable_of_mem_map hd

theorem Test.expressible_of_meant {d : Document} {test : Test} (hd : d.IsProper)
    (h : test.Meant d) : test.Expressible := by
  cases h with
  | scalar hscalar =>
    exact .value (Value.isRepresentable_ofDocument hd) (Value.isScalar_ofDocument hscalar)
  | list items => exact .oneOf (isRepresentable_of_mem_map hd)
  | object h =>
    cases hd with
    | object hkeys hmembers =>
      refine .ops ?_ fun op hop => ?_
      · rwa [map_eq_of_forall₂ (fun _ _ hmeans => hmeans.1) h] at hkeys
      · obtain ⟨m, hm, -, hmeant⟩ := exists_mem_of_forall₂ h op hop
        exact Op.expressible_of_meant (hmembers m hm) hmeant

theorem Entry.expressible_of_rawMeans {d : Document} {entry : Entry} (hd : d.IsProper)
    (h : RawMeans d entry) : entry.Expressible := by
  cases h with
  | text sql | bare hsql hparams => exact .raw nofun
  | full hsql hparams =>
    cases hd with
    | object hkeys hmembers =>
      have hmem := (Keyed.lookup_eq_some_iff_mem hkeys).1 hparams
      exact .raw (isRepresentable_of_mem_map (hmembers _ hmem))

theorem EntryMeans.key_eq {m : String × Document} {entry : Entry} (h : EntryMeans m entry) :
    m.1 = entry.key := by
  cases h with
  | group hitems h => rfl
  | raw h => cases h <;> rfl
  | column hkey h => rfl

/-- An entry that a proper member means can be held by one, given this for the conditions in it. -/
theorem expressible_of_entryMeans {m : String × Document} {entry : Entry}
    (hm : m.2.IsProper) (h : EntryMeans m entry)
    (hchildren : ∀ items, m.2 = .list items → ∀ item ∈ items, item.IsProper →
      ∀ tree, Means item tree → Expressible tree) : entry.Expressible := by
  cases h with
  | group hitems h =>
    cases hm with
    | list hproper =>
      refine .group ?_ fun child hchild => ?_
      · rintro rfl
        exact hitems (List.forall₂_nil_right_iff.1 h)
      · obtain ⟨item, hitem, hmeans⟩ := exists_mem_of_forall₂ h child hchild
        exact hchildren _ rfl item hitem (hproper item hitem) child hmeans
  | raw h => exact Entry.expressible_of_rawMeans hm h
  | column hkey h => exact .column hkey (Test.expressible_of_meant hm h)

/-- The tree that a proper document means has a document of its own. -/
theorem expressible_of_means {d : Document} (hd : d.IsProper) :
    ∀ tree, Means d tree → Expressible tree := by
  induction d using Document.nested_induction with
  | step d ih =>
    rintro tree ⟨h⟩
    cases hd with
    | object hkeys hmembers =>
      refine .node ?_ fun entry hentry => ?_
      · rwa [map_eq_of_forall₂ (fun _ _ hmeans => hmeans.key_eq) h] at hkeys
      · obtain ⟨m, hm, hmeans⟩ := exists_mem_of_forall₂ h entry hentry
        refine expressible_of_entryMeans (hmembers m hm) hmeans fun items hitems item hitem => ?_
        exact ih _ rfl m hm items hitems item hitem

/-- A tree is read from some proper document if it has one of its own, and in no other case. -/
theorem expressible_iff {tree : Tree} :
    Expressible tree ↔ ∃ d : Document, d.IsProper ∧ readTree d = .ok tree := by
  constructor
  · exact fun h => ⟨encode tree, h.isProper_encode, readTree_encode h⟩
  · rintro ⟨d, hd, h⟩
    exact expressible_of_means hd tree ((readTree_eq_ok_iff d).1 h)

/-- The reader accepts the documents of the grammar and gives the tree that each of them means. The
trees read from proper documents are those with a document of their own, and each is read from
it. -/
theorem readTree_lawful (d : Document) (tree : Tree) :
    ((∃ t, readTree d = .ok t) ↔ IsCondition d) ∧
    (readTree d = .ok tree ↔ Means d tree) ∧
    (Expressible tree ↔ ∃ e : Document, e.IsProper ∧ readTree e = .ok tree) ∧
    (Expressible tree → (encode tree).IsProper ∧ readTree (encode tree) = .ok tree) :=
  ⟨exists_readTree_iff d, readTree_eq_ok_iff d, expressible_iff,
    fun h => ⟨h.isProper_encode, readTree_encode h⟩⟩

/-- An operator object beside a group. -/
def activeAdults : Tree :=
  [.column "age" (.ops [.compare .gt (.int 18)]),
    .group .or [[.column "status" (.value (.text "active"))]]]

/-- The tree is written as an object of two members, and read from it. -/
theorem readTree_activeAdults :
    encode activeAdults = .object [("age", .object [(">", .number (.int 18))]),
        ("OR", .list [.object [("status", .text "active")]])] ∧
      readTree (encode activeAdults) = .ok activeAdults := by
  have hage : Test.Expressible (.ops [.compare .gt (.int 18)]) :=
    .ops (List.nodup_singleton _) (List.forall_mem_singleton.2 trivial)
  have hstatus : Expressible [.column "status" (.value (.text "active"))] :=
    .node (List.nodup_singleton _)
      (List.forall_mem_singleton.2 (.column (by decide) (.value trivial nofun)))
  have hentries : ∀ entry ∈ activeAdults, entry.Expressible :=
    List.forall_mem_cons.2 ⟨.column (by decide) hage,
      List.forall_mem_singleton.2 (.group nofun (List.forall_mem_singleton.2 hstatus))⟩
  have hexpressible : Expressible activeAdults := .node (by decide) hentries
  exact ⟨rfl, ((readTree_lawful .null activeAdults).2.2.2 hexpressible).2⟩

end Condition

end Sqlwright
