import Mathlib.Data.List.Basic

/-! Texts in quotes and comma-separated sequences, written and read back.

Quotes and backslashes are escaped. A reader takes what it understands from the
front of a text and leaves the rest, so readers compose as the writers do.
-/

set_option autoImplicit false

namespace PostJen.Foundations.Json

abbrev Reader (A : Type) := List Char → Option (A × List Char)

/-- The reader takes back what the writer has put in front of any text. -/
def Inverts {A : Type} (read : Reader A) (write : A → List Char) : Prop :=
  ∀ item rest, read (write item ++ rest) = some (item, rest)

theorem Inverts.cancel {A : Type} {read : Reader A} {write : A → List Char} (inverts : Inverts read write)
    {first second : A} {rest more : List Char} (same : write first ++ rest = write second ++ more) :
    first = second ∧ rest = more := by
  have one := inverts first rest
  rw [same, inverts second more] at one
  exact ⟨(Prod.mk.inj (Option.some.inj one)).1.symm, (Prod.mk.inj (Option.some.inj one)).2.symm⟩

/-! ## Strings -/

def escape (c : Char) : List Char := if c = '"' ∨ c = '\\' then ['\\', c] else [c]

def body (text : List Char) : List Char := text.flatMap escape ++ ['"']

def readBody : Reader (List Char)
  | [] => none
  | '"' :: rest => some ([], rest)
  | '\\' :: c :: rest => (readBody rest).map fun (text, rest) => (c :: text, rest)
  | c :: rest => (readBody rest).map fun (text, rest) => (c :: text, rest)

theorem readBody_escape (c : Char) (rest : List Char) :
    readBody (escape c ++ rest) = (readBody rest).map fun (text, rest) => (c :: text, rest) := by
  unfold escape
  split
  · simp only [List.cons_append, List.nil_append, readBody]
  · rename_i plain
    rw [not_or] at plain
    simp only [List.cons_append, List.nil_append]
    rw [readBody]
    · exact plain.1
    · exact fun other more same _ => plain.2 same

theorem readBody_body : Inverts readBody body := by
  intro text rest
  unfold body
  induction text with
  | nil => rfl
  | cons c text ih =>
    rw [List.flatMap_cons, List.append_assoc, List.append_assoc, readBody_escape, ← List.append_assoc, ih]
    rfl

def quote (text : String) : List Char := '"' :: body text.toList

def readString : Reader String
  | '"' :: rest => (readBody rest).map fun (text, rest) => (String.ofList text, rest)
  | _ => none

theorem readString_quote : Inverts readString quote := by
  intro text rest
  show (readBody (body text.toList ++ rest)).map _ = _
  rw [readBody_body, Option.map_some]
  dsimp only
  rw [String.ofList_toList]

def nullable : Option String → List Char
  | none => ['n', 'u', 'l', 'l']
  | some text => quote text

def readNullable : Reader (Option String)
  | 'n' :: 'u' :: 'l' :: 'l' :: rest => some (none, rest)
  | text => (readString text).map fun (text, rest) => (some text, rest)

theorem readNullable_nullable : Inverts readNullable nullable := by
  intro text rest
  cases text with
  | none => rfl
  | some text =>
    show (readString (quote text ++ rest)).map _ = _
    rw [readString_quote, Option.map_some]

/-! ## Sequences -/

section
variable {A : Type} (write : A → List Char) (read : Reader A) (close : Char)

def items : List A → List Char
  | [] => [close]
  | [item] => write item ++ [close]
  | item :: rest => write item ++ ',' :: items rest

/-- One item after another, as many as `fuel`. -/
def readItems : Nat → Reader (List A)
  | 0, _ => none
  | fuel + 1, text => (read text).bind fun (item, rest) =>
      match rest with
      | [] => none
      | c :: more =>
          if c = close then some ([item], more)
          else if c = ',' then (readItems fuel more).map fun (items, rest) => (item :: items, rest)
          else none

def readSequence : Reader (List A)
  | c :: rest => if c = close then some ([], rest) else readItems read close (c :: rest).length (c :: rest)
  | [] => none

variable {write read close} (inverts : Inverts read write) (comma : close ≠ ',')
include inverts comma

theorem readItems_items {list : List A} (filled : list ≠ []) {fuel : Nat} (enough : list.length ≤ fuel)
    (rest : List Char) : readItems read close fuel (items write close list ++ rest) = some (list, rest) := by
  induction list generalizing fuel with
  | nil => exact absurd rfl filled
  | cons item more ih =>
    obtain ⟨fuel, rfl⟩ : ∃ n, fuel = n + 1 := ⟨fuel - 1, by rw [List.length_cons] at enough; omega⟩
    rw [readItems]
    cases more with
    | nil =>
      rw [items, List.append_assoc, inverts, Option.bind_some]
      simp only [List.cons_append, List.nil_append, if_pos]
    | cons next others =>
      have continued := ih (List.cons_ne_nil _ _) (show (next :: others).length ≤ fuel by simpa using enough)
      rw [items, List.append_assoc, inverts, Option.bind_some]
      · simp only [List.cons_append, if_neg (Ne.symm comma), if_pos, continued, Option.map_some]
      · exact List.cons_ne_nil _ _

omit inverts comma in
theorem length_items (opens : ∀ item, write item ≠ []) (list : List A) :
    list.length < (items write close list).length := by
  induction list with
  | nil => exact Nat.one_pos
  | cons item more ih =>
    have some' := List.length_pos_iff.mpr (opens item)
    cases more with
    | nil =>
      rw [items, List.length_append, List.length_singleton, List.length_singleton]
      omega
    | cons next others =>
      have later : (next :: others).length < (items write close (next :: others)).length := ih
      rw [items]
      · simp only [List.length_append, List.length_cons] at later ⊢
        omega
      · exact List.cons_ne_nil _ _

/-- A sequence whose items do not begin like its end is read back. -/
theorem readSequence_items (opens : ∀ item, ∃ c more, write item = c :: more ∧ c ≠ close) :
    Inverts (readSequence read close) (items write close) := by
  intro list rest
  cases list with
  | nil =>
    show readSequence read close (close :: rest) = _
    rw [readSequence, if_pos rfl]
  | cons item more =>
    obtain ⟨c, front, begins, other⟩ := opens item
    obtain ⟨text, same⟩ : ∃ text, items write close (item :: more) ++ rest = c :: text := by
      cases more <;> rw [items, begins] <;> simp
    have filled : ∀ item, write item ≠ [] := by
      intro item
      obtain ⟨c, front, begins, -⟩ := opens item
      rw [begins]
      exact List.cons_ne_nil _ _
    have long : (item :: more).length < (items write close (item :: more)).length := length_items filled _
    have enough : (item :: more).length ≤ (items write close (item :: more) ++ rest).length := by
      rw [List.length_append]
      omega
    have read := readItems_items inverts comma (List.cons_ne_nil item more) enough rest
    rw [same] at read ⊢
    rw [readSequence, if_neg other, read]

end

/-! ## Whole texts -/

section
variable {A : Type} {write : A → List Char} {read : Reader A}

def wrap (opening : Char) (write : A → List Char) (item : A) : String := String.ofList (opening :: write item)

def unwrap (opening : Char) (read : Reader A) (text : String) : Option A :=
  match text.toList with
  | [] => none
  | c :: rest =>
      if c = opening then (read rest).bind fun (item, rest) => if rest = [] then some item else none else none

theorem unwrap_wrap (inverts : Inverts read write) (opening : Char) (item : A) :
    unwrap opening read (wrap opening write item) = some item := by
  have whole := inverts item []
  rw [List.append_nil] at whole
  rw [unwrap, wrap, String.toList_ofList]
  dsimp only
  rw [if_pos rfl, whole, Option.bind_some]
  exact if_pos rfl

end

def encodeArray (texts : List String) : String := wrap '[' (items quote ']') texts

def decodeArray (text : String) : Option (List String) := unwrap '[' (readSequence readString ']') text

theorem array_inverts : Inverts (readSequence readString ']') (items quote ']') :=
  readSequence_items readString_quote (by decide) fun text => ⟨_, _, rfl, by decide⟩

theorem decodeArray_encodeArray (texts : List String) : decodeArray (encodeArray texts) = some texts :=
  unwrap_wrap array_inverts '[' texts

def member (entry : String × String) : List Char := quote entry.1 ++ ':' :: quote entry.2

def readMember : Reader (String × String) := fun text =>
  (readString text).bind fun (key, rest) =>
    match rest with
    | ':' :: rest => (readString rest).map fun (value, rest) => ((key, value), rest)
    | _ => none

theorem readMember_member : Inverts readMember member := by
  rintro ⟨key, value⟩ rest
  rw [readMember, member, List.append_assoc, readString_quote, Option.bind_some]
  show (readString (quote value ++ rest)).map _ = _
  rw [readString_quote, Option.map_some]

def encodeObject (entries : List (String × String)) : String := wrap '\x7b' (items member '\x7d') entries

def decodeObject (text : String) : Option (List (String × String)) :=
  unwrap '\x7b' (readSequence readMember '\x7d') text

theorem decodeObject_encodeObject (entries : List (String × String)) :
    decodeObject (encodeObject entries) = some entries :=
  unwrap_wrap (readSequence_items readMember_member (by decide) fun entry => ⟨_, _, rfl, by decide⟩) '\x7b' entries

end PostJen.Foundations.Json
