import AppBundler.Proofs.Source.Words
import AppBundler.Source.Tree.Types
/-!
# Types as text

A type is written on one line. A member of a union or an intersection and the element of an array stand in
parentheses when they hold together less tightly than their place asks for, and the strings in a type are escaped with
backslashes. Not every type can be written: some shapes are not told, and a name that is a word of the language would
be read as that word. The words of a type that can be written begin with one that goes on with nothing before it, and no
arrow is among them.
-/

namespace AppBundler

open Lexeme

namespace TypeExpr

/-! ## Writing -/

/-- A punctuator, with a blank before it or with none. -/
def mark (spaced : Bool) (text : String) : Word := ⟨spaced, .punct, text⟩

/-- An identifier or a keyword. -/
def name (spaced : Bool) (text : List Char) : Word := ⟨spaced, .ident, String.ofList text⟩

/-- The parts of a name between its points. -/
def parts (name : String) : List (List Char) := name.toList.splitOn '.'

/-- The words of a name with points. -/
def partWords (spaced : Bool) : List (List Char) → List Word
  | [] => []
  | part :: more => name spaced part :: more.flatMap fun part => [mark false ".", name false part]

/-- The words of a literal type. A negative number has a word for its sign. -/
def literalWords (spaced : Bool) : LiteralType → List Word
  | .string value => [⟨spaced, .string, String.ofList (quoted value.toList)⟩]
  | .number text =>
    match text.toList with
    | '-' :: digits => [mark spaced "-", ⟨false, .number, String.ofList digits⟩]
    | digits => [⟨spaced, .number, String.ofList digits⟩]
  | .bool value => [⟨spaced, .ident, if value then "true" else "false"⟩]

/-- How tightly a type holds together. -/
def tightness : TypeExpr → Nat
  | .union _ => 0
  | .intersection _ => 1
  | .keyofTypeof _ => 2
  | .keyword _ | .literal _ | .reference _ _ | .array _ | .object _ | .other => 3

/-- The words of a type at a place that asks for some tightness. -/
def enclosed (tight : Nat) (t : TypeExpr) (bare : Bool → List Word) (spaced : Bool) : List Word :=
  if t.tightness < tight then mark spaced "(" :: (bare false ++ [mark false ")"]) else bare spaced

mutual

/-- The words of a type, the first one with a blank before it or with none. -/
def bare : TypeExpr → (spaced : Bool) → List Word
  | .keyword text, spaced => [⟨spaced, .ident, text⟩]
  | .literal value, spaced => literalWords spaced value
  | .reference text [], spaced => partWords spaced (parts text)
  | .reference text (t :: ts), spaced =>
    partWords spaced (parts text) ++
      mark false "<" :: (enclosed 0 t (bare t) false ++ (followers 0 (mark false ",") ts ++ [mark false ">"]))
  | .array element, spaced => enclosed 3 element (bare element) spaced ++ [mark false "[", mark false "]"]
  | .union [], _ => []
  | .union (t :: ts), spaced => enclosed 1 t (bare t) spaced ++ followers 1 (mark true "|") ts
  | .intersection [], _ => []
  | .intersection (t :: ts), spaced => enclosed 2 t (bare t) spaced ++ followers 2 (mark true "&") ts
  | .object members, spaced => mark spaced "\x7b" :: (membersWords members ++ [mark true "\x7d"])
  | .keyofTypeof text, spaced =>
    ⟨spaced, .ident, "keyof"⟩ :: ⟨true, .ident, "typeof"⟩ :: partWords true (parts text)
  | .other, _ => []

/-- The words of types that follow another one, each behind a separator. -/
def followers (tight : Nat) (separator : Word) : List TypeExpr → List Word
  | [] => []
  | t :: ts => separator :: (enclosed tight t (bare t) true ++ followers tight separator ts)

/-- The words of the members of an object type, each with a semicolon behind it. -/
def membersWords : List (MemberOf TypeExpr) → List Word
  | [] => []
  | x :: xs => memberWords x ++ membersWords xs

/-- The words of a member. -/
def memberWords : MemberOf TypeExpr → List Word
  | ⟨key, optional, type, _, _⟩ =>
    ⟨true, .string, String.ofList (quoted key.toList)⟩ ::
      ((if optional then [mark false "?"] else []) ++ (annotationWords type ++ [mark false ";"]))

/-- The words of the type of a member. -/
def annotationWords : Option TypeExpr → List Word
  | none => []
  | some t => mark false ":" :: bare t true

end

/-- A type as text. -/
def print (t : TypeExpr) : String := String.ofList (Word.spell (t.bare false))

/-! ## What can be written -/

/-- The words that begin a type of a form of its own. -/
def leading : List String :=
  ["keyof", "typeof", "readonly", "unique", "infer", "abstract", "new", "asserts", "true", "false"]

/-- The words that do not stand for a type of their name. -/
def reserved : List String := leading ++ (keywords ++ ("this" :: Token.operandKeywords))

/-- The types that are told from their text: no part of the name of a reference is a reserved word, and the members
of an object type have neither a documentation comment nor parameters. -/
inductive Printable : TypeExpr → Prop where
  | keyword {text : String} (h : text ∈ keywords) : Printable (.keyword text)
  | string (value : String) : Printable (.literal (.string value))
  | number {text : String} (h : isNumeral text.toList = true) : Printable (.literal (.number text))
  | negative {text : String} (h : isNumeral text.toList = true) : Printable (.literal (.number ("-" ++ text)))
  | bool (value : Bool) : Printable (.literal (.bool value))
  | reference {text : String} {args : List TypeExpr}
    (hname : ∀ part ∈ parts text, isName part = true ∧ String.ofList part ∉ reserved)
    (hargs : ∀ t ∈ args, Printable t) : Printable (.reference text args)
  | array {element : TypeExpr} (h : Printable element) : Printable (.array element)
  | union {ts : List TypeExpr} (hlength : 2 ≤ ts.length) (h : ∀ t ∈ ts, Printable t) : Printable (.union ts)
  | intersection {ts : List TypeExpr} (hlength : 2 ≤ ts.length) (h : ∀ t ∈ ts, Printable t) :
    Printable (.intersection ts)
  | object {members : List Member} (hdoc : ∀ x ∈ members, x.doc = none) (hmethod : ∀ x ∈ members, x.method = false)
    (htype : ∀ x ∈ members, ∀ t, x.type = some t → Printable t) : Printable (.object members)
  | keyofTypeof {text : String} (h : ∀ part ∈ parts text, isName part = true) : Printable (.keyofTypeof text)

/-! ## The words of a type -/

variable {t : TypeExpr} {ts : List TypeExpr} {w : Word} {ws vs : List Word} {spaced : Bool} {text : String} {tight : Nat}

/-- A word that a type may begin with: no separator and no closing bracket. -/
def Opens (kind : TokenKind) (text : String) : Prop := kind = .punct → text ∈ ["(", "\x7b", "-"]

/-- Words of which the first one has a blank before it or none, and nothing else tells which. -/
inductive Begins (ws : Bool → List Word) : Prop where
  | intro {kind : TokenKind} {text : String} {more : List Word}
    (hws : ∀ spaced, ws spaced = ⟨spaced, kind, text⟩ :: more) (hopens : Opens kind text) : Begins ws

theorem Begins.append {ws ws' : Bool → List Word} (vs : List Word) (h : Begins ws)
    (hws : ∀ spaced, ws' spaced = ws spaced ++ vs) : Begins ws' := by
  obtain ⟨hfirst, hopens⟩ := h
  exact ⟨fun spaced => by rw [hws, hfirst, List.cons_append], hopens⟩

theorem Begins.enclosed {ws : Bool → List Word} (h : Begins ws) (tight : Nat) (t : TypeExpr) :
    Begins (enclosed tight t ws) := by
  by_cases htight : t.tightness < tight
  · exact ⟨fun spaced => by rw [TypeExpr.enclosed, if_pos htight, mark], fun _ => by decide⟩
  · obtain ⟨hfirst, hopens⟩ := h
    exact ⟨fun spaced => by rw [TypeExpr.enclosed, if_neg htight, hfirst], hopens⟩

theorem begins_partWords (text : String) : Begins (partWords · (parts text)) := by
  obtain ⟨part, more, hparts⟩ := List.exists_cons_of_ne_nil (List.splitOn_ne_nil '.' text.toList)
  exact ⟨fun spaced => by rw [parts, hparts, partWords, name], by rintro ⟨⟩⟩

theorem numeral_ne_minus {s : List Char} (h : isNumeral s = true) (ds : List Char) : s ≠ '-' :: ds := by
  rintro rfl
  simp [isNumeral] at h

theorem literalWords_number (h : isNumeral text.toList = true) (spaced : Bool) :
    literalWords spaced (.number text) = [⟨spaced, .number, text⟩] := by
  rw [literalWords]
  split
  · rename_i digits hdigits
    exact absurd hdigits (numeral_ne_minus h digits)
  · rw [String.ofList_toList]

theorem literalWords_negative (text : String) (spaced : Bool) :
    literalWords spaced (.number ("-" ++ text)) = [mark spaced "-", ⟨false, .number, text⟩] := by
  have htext : ("-" ++ text).toList = '-' :: text.toList := by rw [String.toList_append]; rfl
  simp only [literalWords, htext, String.ofList_toList]

theorem exists_cons_cons (h : 2 ≤ ts.length) : ∃ t t' more, ts = t :: t' :: more := by
  obtain ⟨t, more, rfl⟩ := List.exists_cons_of_length_pos (Nat.lt_of_lt_of_le (by decide) h)
  obtain ⟨t', more, rfl⟩ := List.exists_cons_of_length_pos (Nat.lt_of_succ_le (Nat.le_of_succ_le_succ h))
  exact ⟨t, t', more, rfl⟩

/-- The words of a type begin with a word that no type goes on with. -/
theorem Printable.begins (h : Printable t) : Begins t.bare := by
  induction h with
  | keyword => exact ⟨fun spaced => by rw [bare], by rintro ⟨⟩⟩
  | string => exact ⟨fun spaced => by rw [bare, literalWords], by rintro ⟨⟩⟩
  | number h => exact ⟨fun spaced => by rw [bare, literalWords_number h], by rintro ⟨⟩⟩
  | negative h => exact ⟨fun spaced => by rw [bare, literalWords_negative, mark], fun _ => by decide⟩
  | bool => exact ⟨fun spaced => by rw [bare, literalWords], by rintro ⟨⟩⟩
  | @reference text args hname hargs ih =>
    cases args with
    | nil => exact (begins_partWords text).append [] fun spaced => by rw [bare, List.append_nil]
    | cons t ts => exact (begins_partWords text).append _ fun spaced => by rw [bare]
  | @array element h ih => exact (ih.enclosed 3 element).append _ fun spaced => by rw [bare]
  | @union ts hlength h ih =>
    obtain ⟨t, t', more, rfl⟩ := exists_cons_cons hlength
    exact ((ih t List.mem_cons_self).enclosed 1 t).append _ fun spaced => by rw [bare]
  | @intersection ts hlength h ih =>
    obtain ⟨t, t', more, rfl⟩ := exists_cons_cons hlength
    exact ((ih t List.mem_cons_self).enclosed 2 t).append _ fun spaced => by rw [bare]
  | object => exact ⟨fun spaced => by rw [bare, mark], fun _ => by decide⟩
  | keyofTypeof => exact ⟨fun spaced => by rw [bare], by rintro ⟨⟩⟩

/-! ## No arrow is written -/

/-- No word is an arrow. -/
def Plain (ws : List Word) : Prop := ∀ w ∈ ws, w.text ≠ "=>"

@[simp]
theorem plain_nil : Plain [] := List.forall_mem_nil _

@[simp]
theorem plain_cons : Plain (w :: ws) ↔ w.text ≠ "=>" ∧ Plain ws := List.forall_mem_cons

@[simp]
theorem plain_append : Plain (ws ++ vs) ↔ Plain ws ∧ Plain vs := List.forall_mem_append

theorem ne_arrow_of_isName (h : isName text.toList = true) : text ≠ "=>" := by
  rintro rfl
  revert h
  decide +kernel

theorem ne_arrow_of_isNumeral (h : isNumeral text.toList = true) : text ≠ "=>" := by
  rintro rfl
  revert h
  decide +kernel

theorem quoted_ne_arrow (value : List Char) : String.ofList (quoted value) ≠ "=>" := by
  intro h
  have hlist := congrArg String.toList h
  rw [String.toList_ofList, quoted] at hlist
  simp at hlist

theorem plain_partWords {names : List (List Char)} (h : ∀ part ∈ names, isName part = true) :
    Plain (partWords spaced names) := by
  have hname (part) (hpart : part ∈ names) : String.ofList part ≠ "=>" :=
    ne_arrow_of_isName (by rw [String.toList_ofList]; exact h part hpart)
  cases names with
  | nil => exact plain_nil
  | cons first more =>
    refine plain_cons.mpr ⟨hname first List.mem_cons_self, fun w hw => ?_⟩
    obtain ⟨part, hpart, hw⟩ := List.mem_flatMap.mp hw
    rcases List.mem_pair.mp hw with rfl | rfl
    · decide
    · exact hname part (List.mem_cons_of_mem _ hpart)

theorem plain_enclosed {ws : Bool → List Word} (h : ∀ spaced, Plain (ws spaced)) :
    Plain (enclosed tight t ws spaced) := by
  rw [TypeExpr.enclosed]
  split
  · simp [mark, h false]
  · exact h spaced

theorem plain_followers {separator : Word} (hseparator : separator.text ≠ "=>")
    (h : ∀ t ∈ ts, ∀ spaced, Plain (t.bare spaced)) : Plain (followers tight separator ts) := by
  induction ts with
  | nil => exact plain_nil
  | cons t ts ih =>
    have hmore := ih fun t ht => h t (List.mem_cons_of_mem _ ht)
    rw [followers, plain_cons, plain_append]
    exact ⟨hseparator, plain_enclosed (h t List.mem_cons_self), hmore⟩

theorem plain_membersWords {members : List Member}
    (h : ∀ x ∈ members, ∀ t, x.type = some t → ∀ spaced, Plain (t.bare spaced)) : Plain (membersWords members) := by
  induction members with
  | nil => exact plain_nil
  | cons x xs ih =>
    have hmore := ih fun x hx => h x (List.mem_cons_of_mem _ hx)
    obtain ⟨key, optional, type, doc, method⟩ := x
    have htype : Plain (annotationWords type) := by
      cases type with
      | none => exact plain_nil
      | some t => simp [annotationWords, mark, h _ List.mem_cons_self t rfl true]
    cases optional <;> simp [membersWords, memberWords, mark, htype, hmore, quoted_ne_arrow]

theorem Printable.plain (h : Printable t) : ∀ spaced, Plain (t.bare spaced) := by
  have hkeywords : ∀ text ∈ keywords, text ≠ "=>" := by decide
  intro spaced
  induction h generalizing spaced with
  | keyword h => simp [bare, hkeywords _ h]
  | string value => simp [bare, literalWords, quoted_ne_arrow]
  | number h => simp [bare, literalWords_number h, ne_arrow_of_isNumeral h]
  | negative h => simp [bare, literalWords_negative, mark, ne_arrow_of_isNumeral h]
  | bool value => cases value <;> simp [bare, literalWords]
  | @reference text args hname hargs ih =>
    have hparts : Plain (partWords spaced (parts text)) := plain_partWords fun part hpart => (hname part hpart).1
    cases args with
    | nil => simpa [bare] using hparts
    | cons t ts =>
      have hfirst : Plain (enclosed 0 t t.bare false) := plain_enclosed (ih t List.mem_cons_self)
      have hmore : Plain (followers 0 (mark false ",") ts) :=
        plain_followers (by decide) fun t ht => ih t (List.mem_cons_of_mem _ ht)
      rw [bare, plain_append, plain_cons, plain_append, plain_append]
      exact ⟨hparts, by decide, hfirst, hmore, by simp [mark]⟩
  | @array element h ih =>
    have helement : Plain (enclosed 3 element element.bare spaced) := plain_enclosed ih
    simp [bare, mark, helement]
  | @union ts hlength h ih =>
    obtain ⟨t, t', more, rfl⟩ := exists_cons_cons hlength
    rw [bare, plain_append]
    exact ⟨plain_enclosed (ih t List.mem_cons_self),
      plain_followers (by decide) fun t ht => ih t (List.mem_cons_of_mem _ ht)⟩
  | @intersection ts hlength h ih =>
    obtain ⟨t, t', more, rfl⟩ := exists_cons_cons hlength
    rw [bare, plain_append]
    exact ⟨plain_enclosed (ih t List.mem_cons_self),
      plain_followers (by decide) fun t ht => ih t (List.mem_cons_of_mem _ ht)⟩
  | object hdoc hmethod htype ih => simp [bare, mark, plain_membersWords ih]
  | keyofTypeof h => simp [bare, plain_partWords h]

end TypeExpr

end AppBundler
