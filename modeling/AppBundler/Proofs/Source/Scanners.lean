import Mathlib.Data.List.Basic
import Mathlib.Data.List.TakeWhile
import AppBundler.Source.Lexeme
/-!
# What scanners read does not depend on what follows

A scanner that ends with a mark of its own (a quote, a bracket, the angle bracket of a tag) reads the same
characters whatever comes after that mark, and with any more fuel. So such a piece of a text can be read
without its surroundings.
-/

namespace AppBundler

namespace Scan

variable {text p q r : List Char} {x : Scan} {next : List Char → Scan}

/-- A scan seen from before succeeds when it does. -/
theorem precede_eq_ok_iff : x.precede text = .ok ⟨p, r⟩ ↔ ∃ q, x = .ok ⟨q, r⟩ ∧ p = text ++ q := by
  cases x with
  | error f => simp [precede]
  | ok s =>
    obtain ⟨q, r'⟩ := s
    constructor
    · intro h
      cases h
      exact ⟨q, rfl, rfl⟩
    · rintro ⟨q', h, rfl⟩
      cases h
      rfl

/-- One scan after another succeeds when both do. -/
theorem andThen_eq_ok_iff : x.andThen next = .ok ⟨p, r⟩ ↔
    ∃ q₁ q₂ rest, x = .ok ⟨q₁, rest⟩ ∧ next rest = .ok ⟨q₂, r⟩ ∧ p = q₁ ++ q₂ := by
  cases x with
  | error f => simp [andThen]
  | ok s =>
    obtain ⟨q₁, rest⟩ := s
    rw [andThen, precede_eq_ok_iff]
    constructor
    · rintro ⟨q₂, h, rfl⟩
      exact ⟨q₁, q₂, rest, rfl, h, rfl⟩
    · rintro ⟨q₁', q₂, rest', h, hnext, rfl⟩
      cases h
      exact ⟨q₂, hnext, rfl⟩

theorem precede_precede : (x.precede p).precede q = x.precede (q ++ p) := by
  cases x with
  | error f => simp only [precede, List.append_assoc]
  | ok s => simp only [precede, List.append_assoc]

@[simp]
theorem precede_ok : Scan.precede text (.ok ⟨q, r⟩) = .ok ⟨text ++ q, r⟩ := rfl

@[simp]
theorem andThen_ok : Scan.andThen (.ok ⟨q, r⟩) next = (next r).precede q := rfl

end Scan

namespace Lexeme

/-- What `f` reads, `g` reads too, before any rest; and it is something. -/
def ReadsAs (f g : List Char → Scan) : Prop :=
  ∀ ⦃s p r⦄, f s = .ok ⟨p, r⟩ → p ≠ [] ∧ s = p ++ r ∧ ∀ r', g (p ++ r') = .ok ⟨p, r'⟩

/-! ## Runs -/

/-- A run of characters goes up to the first one that is not of its kind. -/
theorem takeWhile_eq_iff {q : Char → Bool} {s t u : List Char} :
    takeWhile q s = ⟨t, u⟩ ↔ s = t ++ u ∧ (∀ d ∈ t, q d = true) ∧ ∀ d ∈ u.head?, q d = false := by
  rw [takeWhile, Split.mk.injEq]
  constructor
  · rintro ⟨rfl, rfl⟩
    refine ⟨List.takeWhile_append_dropWhile.symm, fun d hd => List.mem_takeWhile_imp hd, fun d hd => ?_⟩
    have hhead := List.head?_dropWhile_not q s
    rw [Option.mem_def.mp hd] at hhead
    simpa using hhead
  · rintro ⟨rfl, ht, hu⟩
    rw [List.takeWhile_append_of_pos ht, List.dropWhile_append_of_pos ht]
    cases u with
    | nil => simp
    | cons c u => simp [hu c rfl]

/-! ## Flat pieces -/

/-- The rest of a block comment. -/
theorem commentRest_readsAs : ReadsAs commentRest commentRest := by
  intro s p r h
  fun_induction commentRest s generalizing p with
  | case1 => cases h
  | case2 rest =>
    cases h
    exact ⟨by simp, rfl, fun _ => rfl⟩
  | case3 c s hend ih =>
    obtain ⟨q, hq, rfl⟩ := Scan.precede_eq_ok_iff.mp h
    obtain ⟨hne, rfl, hread⟩ := ih hq
    refine ⟨by simp, by simp, fun r' => ?_⟩
    have hopen : ∀ s', c = '*' → q ++ r' = '/' :: s' → False := by
      rintro s' rfl hs'
      cases q with
      | nil => exact hne rfl
      | cons d q => exact hend (q ++ r) rfl (by rw [List.cons_append, (List.cons.inj hs').1])
    rw [List.cons_append, List.nil_append, List.cons_append, commentRest, hread, Scan.precede_ok]
    · rfl
    · exact hopen

/-- The rest of a string literal. -/
theorem stringRest_readsAs {quote : Char} (hquote : quote ≠ '\\') : ReadsAs (stringRest quote) (stringRest quote) := by
  intro s p r h
  fun_induction stringRest quote s generalizing p with
  | case1 => cases h
  | case2 => cases h
  | case3 c s ih =>
    obtain ⟨q, hq, rfl⟩ := Scan.precede_eq_ok_iff.mp h
    obtain ⟨hne, rfl, hread⟩ := ih hq
    refine ⟨by simp, by simp, fun r' => ?_⟩
    simp [stringRest, hread]
  | case4 => cases h
  | case5 s hlast hescape hbreak =>
    cases h
    refine ⟨by simp, rfl, fun r' => ?_⟩
    simp [stringRest, hquote, hbreak]
  | case6 c s hlast hescape hbreak hother ih =>
    obtain ⟨q, hq, rfl⟩ := Scan.precede_eq_ok_iff.mp h
    obtain ⟨hne, rfl, hread⟩ := ih hq
    have hplain : c ≠ '\\' := by
      rintro rfl
      cases q with
      | nil => exact hne rfl
      | cons d q => exact hescape d (q ++ r) rfl rfl
    refine ⟨by simp, by simp, fun r' => ?_⟩
    simp [stringRest, hplain, hbreak, hother, hread]

/-- The type arguments of an element. -/
theorem angles_readsAs (depth : Nat) : ReadsAs (angles depth) (angles depth) := by
  intro s p r h
  fun_induction angles depth s generalizing p with
  | case1 => cases h
  | case2 depth s ih =>
    obtain ⟨q, hq, rfl⟩ := Scan.precede_eq_ok_iff.mp h
    obtain ⟨-, rfl, hread⟩ := ih hq
    exact ⟨by simp, by simp, fun r' => by simp [angles, hread]⟩
  | case3 depth s hdepth =>
    cases h
    exact ⟨by simp, rfl, fun r' => by simp [angles, hdepth]⟩
  | case4 depth s hdepth _ ih =>
    obtain ⟨q, hq, rfl⟩ := Scan.precede_eq_ok_iff.mp h
    obtain ⟨-, rfl, hread⟩ := ih hq
    exact ⟨by simp, by simp, fun r' => by simp [angles, hdepth, hread]⟩
  | case5 depth c s hopen hclose ih =>
    obtain ⟨q, hq, rfl⟩ := Scan.precede_eq_ok_iff.mp h
    obtain ⟨-, rfl, hread⟩ := ih hq
    exact ⟨by simp, by simp, fun r' => by simp [angles, hopen, hclose, hread]⟩

/-- The rest of an attribute in quotes. -/
theorem attributeRest_readsAs (quote : Char) : ReadsAs (attributeRest quote) (attributeRest quote) := by
  intro s p r h
  fun_induction attributeRest quote s generalizing p with
  | case1 => cases h
  | case2 s =>
    cases h
    exact ⟨by simp, rfl, fun r' => by simp [attributeRest]⟩
  | case3 c s hother ih =>
    obtain ⟨q, hq, rfl⟩ := Scan.precede_eq_ok_iff.mp h
    obtain ⟨-, rfl, hread⟩ := ih hq
    exact ⟨by simp, by simp, fun r' => by simp [attributeRest, hother, hread]⟩

/-- The rest of a closing tag. -/
theorem closingRest_readsAs : ReadsAs closingRest closingRest := by
  intro s p r h
  fun_induction closingRest s generalizing p with
  | case1 => cases h
  | case2 s =>
    cases h
    exact ⟨by simp, rfl, fun r' => by simp [closingRest]⟩
  | case3 c s hother ih =>
    obtain ⟨q, hq, rfl⟩ := Scan.precede_eq_ok_iff.mp h
    obtain ⟨-, rfl, hread⟩ := ih hq
    exact ⟨by simp, by simp, fun r' => by simp [closingRest, hother, hread]⟩

/-! ## Templates and elements -/

/-- Only the first character of what follows an angle bracket tells whether an element begins. -/
theorem elementFollows_append {q : List Char} (hne : q ≠ []) (r r' : List Char) :
    elementFollows (q ++ r) = elementFollows (q ++ r') := by
  obtain ⟨c, q, rfl⟩ := List.exists_cons_of_ne_nil hne
  rfl

/-- Type arguments may stand before what is read next. -/
theorem anglesIfNext_append {v q₁ q₂ r : List Char} (hne : q₂ ≠ [])
    (h : (if v.head? = some '<' then angles 0 v else .ok ⟨[], v⟩) = .ok ⟨q₁, q₂ ++ r⟩) :
    v = q₁ ++ (q₂ ++ r) ∧ ∀ r', (if (q₁ ++ (q₂ ++ r')).head? = some '<'
      then angles 0 (q₁ ++ (q₂ ++ r')) else .ok ⟨[], q₁ ++ (q₂ ++ r')⟩) = .ok ⟨q₁, q₂ ++ r'⟩ := by
  split at h
  case isTrue hangle =>
    obtain ⟨hne₁, rfl, hread⟩ := angles_readsAs 0 h
    refine ⟨rfl, fun r' => ?_⟩
    rw [List.head?_append_of_ne_nil _ hne₁] at hangle ⊢
    rw [if_pos hangle, hread]
  case isFalse hangle =>
    obtain ⟨rfl, rfl⟩ := Split.mk.inj (Except.ok.inj h)
    refine ⟨rfl, fun r' => ?_⟩
    rw [List.head?_append_of_ne_nil _ hne] at hangle
    rw [List.nil_append, List.head?_append_of_ne_nil _ hne, if_neg hangle]

/-- The scanners of one level read as those of another one do. -/
structure LevelReadsAs (jsx : Bool) (n m : Nat) : Prop where
  template : ReadsAs (templateRest jsx n) (templateRest jsx m)
  embedded : ∀ inner last, ReadsAs (embeddedRest jsx n inner last) (embeddedRest jsx m inner last)
  element : ReadsAs (elementRest jsx n) (elementRest jsx m)
  attributes : ReadsAs (attributesRest jsx n) (attributesRest jsx m)
  children : ReadsAs (childrenRest jsx n) (childrenRest jsx m)

/-- The value of an attribute, if one follows its name. -/
def attributeValue (jsx : Bool) (n : Nat) : List Char → Scan
  | '=' :: q :: r =>
    if q = '"' || q = '\'' then (attributeRest q r).precede ['=', q]
    else if q = '{' then (embeddedRest jsx n 0 '{' r).precede ['=', q]
    else .error ⟨.invalidAttributeValue, ['=']⟩
  | ['='] => .error ⟨.invalidAttributeValue, ['=']⟩
  | r => .ok ⟨[], r⟩

section Step

variable {jsx : Bool} {n m : Nat} (h : LevelReadsAs jsx n m)
include h

/-- A template literal goes on with an escape, an expression or a character. -/
theorem templateRest_readsAs : ReadsAs (templateRest jsx (n + 1)) (templateRest jsx (m + 1)) := by
  intro s p r hs
  unfold templateRest at hs
  split at hs
  case h_1 | h_2 | h_3 => cases hs
  case h_4 c t heq =>
    cases heq
    obtain ⟨q, hq, rfl⟩ := Scan.precede_eq_ok_iff.mp hs
    obtain ⟨-, rfl, hread⟩ := h.template hq
    exact ⟨by simp, by simp, fun r' => by simp [templateRest, hread]⟩
  case h_5 t heq =>
    cases heq
    obtain ⟨q, hq, rfl⟩ := Scan.precede_eq_ok_iff.mp hs
    obtain ⟨q₁, q₂, rest, hfirst, hnext, rfl⟩ := Scan.andThen_eq_ok_iff.mp hq
    obtain ⟨-, rfl, hread⟩ := h.embedded _ _ hfirst
    obtain ⟨-, rfl, hread'⟩ := h.template hnext
    exact ⟨by simp, by simp, fun r' => by simp [templateRest, hread, hread']⟩
  case h_6 c t _ hescape hexpr heq =>
    cases heq
    by_cases hc : c = '\x60'
    · rw [if_pos hc] at hs
      cases hs
      exact ⟨by simp, rfl, fun r' => by simp [templateRest, hc]⟩
    · rw [if_neg hc] at hs
      obtain ⟨q, hq, rfl⟩ := Scan.precede_eq_ok_iff.mp hs
      obtain ⟨hne, rfl, hread⟩ := h.template hq
      obtain ⟨d, q, rfl⟩ := List.exists_cons_of_ne_nil hne
      have hplain : c ≠ '\\' := fun hplain => hescape d (q ++ r) hplain rfl
      have hflat : c = '$' → d ≠ '{' := fun hdollar hbrace => hexpr (q ++ r) hdollar (by rw [hbrace]; rfl)
      refine ⟨by simp, by simp, fun r' => ?_⟩
      rw [List.cons_append, List.nil_append, List.cons_append, templateRest, if_neg hc, hread, Scan.precede_ok]
      · rfl
      · exact fun hback => absurd hback hplain
      · exact fun _ _ hback => absurd hback hplain
      · exact fun _ hdollar hbrace => hflat hdollar (List.cons.inj hbrace).1

/-- An embedded expression goes on with what its next character opens. -/
theorem embeddedRest_readsAs (inner : Nat) (last : Char) :
    ReadsAs (embeddedRest jsx (n + 1) inner last) (embeddedRest jsx (m + 1) inner last) := by
  intro s p r hs
  cases s with
  | nil => cases hs
  | cons c t =>
  unfold embeddedRest at hs
  split at hs
  case isTrue hopen =>
    subst hopen
    obtain ⟨q, hq, rfl⟩ := Scan.precede_eq_ok_iff.mp hs
    obtain ⟨-, rfl, hread⟩ := h.embedded _ _ hq
    exact ⟨by simp, by simp, fun r' => by simp [embeddedRest, hread]⟩
  split at hs
  case isTrue hclose =>
    subst hclose
    cases inner with
    | zero =>
      cases hs
      exact ⟨by simp, rfl, fun r' => by simp [embeddedRest]⟩
    | succ k =>
      obtain ⟨q, hq, rfl⟩ := Scan.precede_eq_ok_iff.mp hs
      obtain ⟨-, rfl, hread⟩ := h.embedded _ _ hq
      exact ⟨by simp, by simp, fun r' => by simp [embeddedRest, hread]⟩
  split at hs
  case isTrue hquote =>
    have hplain : c ≠ '\\' := by
      rintro rfl
      simp at hquote
    obtain ⟨q, hq, rfl⟩ := Scan.precede_eq_ok_iff.mp hs
    obtain ⟨q₁, q₂, rest, hfirst, hnext, rfl⟩ := Scan.andThen_eq_ok_iff.mp hq
    obtain ⟨-, rfl, hread⟩ := stringRest_readsAs hplain hfirst
    obtain ⟨-, rfl, hread'⟩ := h.embedded _ _ hnext
    refine ⟨by simp, by simp, fun r' => ?_⟩
    simp_all [embeddedRest]
  split at hs
  case isTrue htick =>
    subst htick
    obtain ⟨q, hq, rfl⟩ := Scan.precede_eq_ok_iff.mp hs
    obtain ⟨q₁, q₂, rest, hfirst, hnext, rfl⟩ := Scan.andThen_eq_ok_iff.mp hq
    obtain ⟨-, rfl, hread⟩ := h.template hfirst
    obtain ⟨-, rfl, hread'⟩ := h.embedded _ _ hnext
    exact ⟨by simp, by simp, fun r' => by simp [embeddedRest, hread, hread']⟩
  split at hs
  case isTrue hline =>
    rw [Bool.and_eq_true, decide_eq_true_eq, decide_eq_true_eq] at hline
    obtain ⟨rfl, hslash⟩ := hline
    obtain ⟨q, hq, rfl⟩ := Scan.precede_eq_ok_iff.mp hs
    obtain ⟨q₁, q₂, rest, hfirst, hnext, rfl⟩ := Scan.andThen_eq_ok_iff.mp hq
    obtain ⟨hne, rfl, hread⟩ := h.embedded _ _ hnext
    obtain ⟨rfl, hin, hout⟩ := takeWhile_eq_iff.mp (Except.ok.inj hfirst)
    refine ⟨by simp, by simp, fun r' => ?_⟩
    have hbreak : lineRest (q₁ ++ (q₂ ++ r')) = ⟨q₁, q₂ ++ r'⟩ := by
      refine takeWhile_eq_iff.mpr ⟨rfl, hin, ?_⟩
      rwa [List.head?_append_of_ne_nil _ hne] at hout ⊢
    have hslash' : (q₁ ++ (q₂ ++ r')).head? = some '/' := by
      have hne' : q₁ ++ q₂ ≠ [] := by simp [hne]
      rw [← List.append_assoc, List.head?_append_of_ne_nil _ hne'] at hslash ⊢
      exact hslash
    simp [embeddedRest, hslash', hbreak, hread]
  split at hs
  case isTrue hblock =>
    rw [Bool.and_eq_true, decide_eq_true_eq, decide_eq_true_eq] at hblock
    obtain ⟨rfl, hstar⟩ := hblock
    obtain ⟨t, rfl⟩ : ∃ t', t = '*' :: t' := by
      cases t with
      | nil => cases hstar
      | cons d t => exact ⟨t, by rw [Option.some.inj hstar]⟩
    obtain ⟨q, hq, rfl⟩ := Scan.precede_eq_ok_iff.mp hs
    obtain ⟨q₁, q₂, rest, hfirst, hnext, rfl⟩ := Scan.andThen_eq_ok_iff.mp hq
    obtain ⟨q₁, hcomment, rfl⟩ := Scan.precede_eq_ok_iff.mp hfirst
    obtain ⟨-, heq, hread⟩ := commentRest_readsAs hcomment
    obtain rfl : t = q₁ ++ rest := heq
    obtain ⟨-, rfl, hread'⟩ := h.embedded _ _ hnext
    exact ⟨by simp, by simp, fun r' => by simp [embeddedRest, hread, hread']⟩
  split at hs
  case isTrue helement =>
    simp only [Bool.and_eq_true, decide_eq_true_eq] at helement
    obtain ⟨⟨⟨rfl, rfl⟩, hoperand⟩, hfollows⟩ := helement
    obtain ⟨q, hq, rfl⟩ := Scan.precede_eq_ok_iff.mp hs
    obtain ⟨q₁, q₂, rest, hfirst, hnext, rfl⟩ := Scan.andThen_eq_ok_iff.mp hq
    obtain ⟨hne, rfl, hread⟩ := h.element hfirst
    obtain ⟨-, rfl, hread'⟩ := h.embedded _ _ hnext
    refine ⟨by simp, by simp, fun r' => ?_⟩
    rw [elementFollows_append hne _ (q₂ ++ r')] at hfollows
    simp [embeddedRest, hoperand, hfollows, hread, hread']
  case isFalse hopen hclose hquote htick hline hblock helement =>
    obtain ⟨q, hq, rfl⟩ := Scan.precede_eq_ok_iff.mp hs
    obtain ⟨hne, rfl, hread⟩ := h.embedded _ _ hq
    refine ⟨by simp, by simp, fun r' => ?_⟩
    rw [List.head?_append_of_ne_nil _ hne] at hline hblock
    rw [elementFollows_append hne _ r'] at helement
    rw [List.cons_append, List.nil_append, List.cons_append]
    unfold embeddedRest
    rw [if_neg hopen, if_neg hclose, if_neg hquote, if_neg htick, List.head?_append_of_ne_nil _ hne, if_neg hline,
      if_neg hblock, if_neg helement, hread, Scan.precede_ok]
    rfl

/-- An element has a name, with or without type arguments, and attributes, or neither. -/
theorem elementRest_readsAs : ReadsAs (elementRest jsx (n + 1)) (elementRest jsx (m + 1)) := by
  intro s p r hs
  unfold elementRest at hs
  split at hs
  case h_1 t =>
    obtain ⟨q, hq, rfl⟩ := Scan.precede_eq_ok_iff.mp hs
    obtain ⟨-, rfl, hread⟩ := h.children hq
    exact ⟨by simp, by simp, fun r' => by simp [elementRest, hread]⟩
  case h_2 hopen =>
    dsimp only at hs
    generalize hname : takeWhile _ s = name at hs
    obtain ⟨name, v⟩ := name
    obtain ⟨rfl, hin, hout⟩ := takeWhile_eq_iff.mp hname
    obtain ⟨q, hq, rfl⟩ := Scan.precede_eq_ok_iff.mp hs
    obtain ⟨q₁, q₂, rest, htyped, hnext, rfl⟩ := Scan.andThen_eq_ok_iff.mp hq
    obtain ⟨hne, rfl, hread'⟩ := h.attributes hnext
    obtain ⟨rfl, hread⟩ := anglesIfNext_append hne htyped
    refine ⟨by simp [hne], by simp, fun r' => ?_⟩
    have hhead : ∀ u, (name ++ (q₁ ++ (q₂ ++ u))).head? = (name ++ (q₁ ++ q₂)).head? := by
      intro u
      have hassoc : name ++ (q₁ ++ (q₂ ++ u)) = (name ++ (q₁ ++ q₂)) ++ u := by simp only [List.append_assoc]
      rw [hassoc, List.head?_append_of_ne_nil _ (by simp [hne])]
    have hrun := takeWhile_eq_iff.mpr ⟨rfl, hin, (by
      have hne' : q₁ ++ q₂ ≠ [] := by simp [hne]
      rw [← List.append_assoc, List.head?_append_of_ne_nil _ hne'] at hout ⊢
      exact hout : ∀ d ∈ (q₁ ++ (q₂ ++ r')).head?, _)⟩
    rw [List.append_assoc, List.append_assoc]
    unfold elementRest
    split
    case h_1 t heq =>
      have hsame := (hhead r).trans (hhead r').symm
      rw [heq, List.head?_cons] at hsame
      obtain ⟨u, hu⟩ := List.head?_eq_some_iff.mp hsame
      exact absurd hu (hopen u)
    case h_2 =>
      simp only [hrun, hread, Scan.andThen_ok, hread', Scan.precede_ok]

/-- The value of an attribute may stand before what is read next. -/
theorem attributeValue_append {v q₁ q₂ r : List Char} (hne : q₂ ≠ [])
    (hv : attributeValue jsx n v = .ok ⟨q₁, q₂ ++ r⟩) :
    v = q₁ ++ (q₂ ++ r) ∧ ∀ r', attributeValue jsx m (q₁ ++ (q₂ ++ r')) = .ok ⟨q₁, q₂ ++ r'⟩ := by
  unfold attributeValue at hv
  split at hv
  case h_1 d w =>
    split at hv
    case isTrue hquote =>
      obtain ⟨q, hq, rfl⟩ := Scan.precede_eq_ok_iff.mp hv
      obtain ⟨-, rfl, hread⟩ := attributeRest_readsAs _ hq
      exact ⟨by simp, fun r' => by simp only [List.cons_append, List.nil_append, attributeValue, if_pos hquote, hread, Scan.precede_ok]⟩
    split at hv
    case isTrue hquote hopen =>
      obtain ⟨q, hq, rfl⟩ := Scan.precede_eq_ok_iff.mp hv
      obtain ⟨-, rfl, hread⟩ := h.embedded _ _ hq
      exact ⟨by simp, fun r' => by simp only [List.cons_append, List.nil_append, attributeValue, if_neg hquote, if_pos hopen, hread, Scan.precede_ok]⟩
    case isFalse hquote hopen =>
      cases hv
  case h_2 => cases hv
  case h_3 hvalued hlast =>
    obtain ⟨rfl, rfl⟩ := Split.mk.inj (Except.ok.inj hv)
    refine ⟨rfl, fun r' => ?_⟩
    obtain ⟨d, q, rfl⟩ := List.exists_cons_of_ne_nil hne
    have hplain : d ≠ '=' := by
      rintro rfl
      cases hw : q ++ r with
      | nil => exact hlast (by rw [List.cons_append, hw])
      | cons e w => exact hvalued e w (by rw [List.cons_append, hw])
    rw [List.nil_append, List.cons_append, attributeValue]
    · exact fun _ _ heq => hplain (List.cons.inj heq).1
    · exact fun heq => hplain (List.cons.inj heq).1

/-- The attributes of an element go up to its end or to its children. -/
theorem attributesRest_readsAs : ReadsAs (attributesRest jsx (n + 1)) (attributesRest jsx (m + 1)) := by
  intro s p r hs
  cases s with
  | nil => cases hs
  | cons c t =>
  unfold attributesRest at hs
  split at hs
  case isTrue hblank =>
    obtain ⟨q, hq, rfl⟩ := Scan.precede_eq_ok_iff.mp hs
    obtain ⟨-, rfl, hread⟩ := h.attributes hq
    exact ⟨by simp, by simp, fun r' => by simp [attributesRest, hblank, hread]⟩
  split at hs
  case isTrue hblank hend =>
    rw [Bool.and_eq_true, decide_eq_true_eq, decide_eq_true_eq] at hend
    obtain ⟨rfl, hclose⟩ := hend
    obtain ⟨t, rfl⟩ := List.head?_eq_some_iff.mp hclose
    cases hs
    exact ⟨by simp, rfl, fun r' => by simp [attributesRest, hblank]⟩
  split at hs
  case isTrue hclose =>
    subst hclose
    obtain ⟨q, hq, rfl⟩ := Scan.precede_eq_ok_iff.mp hs
    obtain ⟨-, rfl, hread⟩ := h.children hq
    exact ⟨by simp, by simp, fun r' => by simp_all [attributesRest]⟩
  split at hs
  case isTrue hopen =>
    subst hopen
    obtain ⟨q, hq, rfl⟩ := Scan.precede_eq_ok_iff.mp hs
    obtain ⟨q₁, q₂, rest, hfirst, hnext, rfl⟩ := Scan.andThen_eq_ok_iff.mp hq
    obtain ⟨-, rfl, hread⟩ := h.embedded _ _ hfirst
    obtain ⟨-, rfl, hread'⟩ := h.attributes hnext
    exact ⟨by simp, by simp, fun r' => by simp_all [attributesRest]⟩
  split at hs
  case isTrue hblank hend hclose hopen hname =>
    dsimp only at hs
    generalize hrun : takeWhile _ t = run at hs
    obtain ⟨name, v⟩ := run
    obtain ⟨rfl, hin, hout⟩ := takeWhile_eq_iff.mp hrun
    obtain ⟨q, hq, rfl⟩ := Scan.precede_eq_ok_iff.mp hs
    obtain ⟨q₁, q₂, rest, hvalue, hnext, rfl⟩ := Scan.andThen_eq_ok_iff.mp hq
    obtain ⟨hne, rfl, hread⟩ := h.attributes hnext
    obtain ⟨rfl, hread'⟩ := attributeValue_append h hne hvalue
    refine ⟨by simp, by simp, fun r' => ?_⟩
    have hrun' := takeWhile_eq_iff.mpr ⟨rfl, hin, (by
      have hne' : q₁ ++ q₂ ≠ [] := by simp [hne]
      rw [← List.append_assoc, List.head?_append_of_ne_nil _ hne'] at hout ⊢
      exact hout : ∀ d ∈ (q₁ ++ (q₂ ++ r')).head?, _)⟩
    have hhead : ∀ u, (name ++ (q₁ ++ (q₂ ++ u))).head? = (name ++ (q₁ ++ q₂)).head? := by
      intro u
      have hassoc : name ++ (q₁ ++ (q₂ ++ u)) = (name ++ (q₁ ++ q₂)) ++ u := by simp only [List.append_assoc]
      rw [hassoc, List.head?_append_of_ne_nil _ (by simp [hne])]
    rw [hhead] at hend
    rw [List.append_assoc, List.cons_append, List.append_assoc]
    unfold attributesRest
    rw [if_neg hblank, hhead, if_neg hend, if_neg hclose, if_neg hopen, if_pos hname]
    dsimp only
    rw [hrun']
    change (Scan.andThen (attributeValue jsx m (q₁ ++ (q₂ ++ r'))) (attributesRest jsx m)).precede (c :: name) = _
    rw [hread', Scan.andThen_ok, hread, Scan.precede_ok, Scan.precede_ok]
  case isFalse hname =>
    cases hs

/-- The children of an element go up to a closing tag. -/
theorem childrenRest_readsAs : ReadsAs (childrenRest jsx (n + 1)) (childrenRest jsx (m + 1)) := by
  intro s p r hs
  cases s with
  | nil => cases hs
  | cons c t =>
  unfold childrenRest at hs
  split at hs
  case isTrue hopen =>
    subst hopen
    obtain ⟨q, hq, rfl⟩ := Scan.precede_eq_ok_iff.mp hs
    obtain ⟨q₁, q₂, rest, hfirst, hnext, rfl⟩ := Scan.andThen_eq_ok_iff.mp hq
    obtain ⟨-, rfl, hread⟩ := h.embedded _ _ hfirst
    obtain ⟨-, rfl, hread'⟩ := h.children hnext
    exact ⟨by simp, by simp, fun r' => by simp [childrenRest, hread, hread']⟩
  split at hs
  case isTrue htag =>
    subst htag
    split at hs
    case isTrue hslash =>
      obtain ⟨q, hq, rfl⟩ := Scan.precede_eq_ok_iff.mp hs
      obtain ⟨hne, rfl, hread⟩ := closingRest_readsAs hq
      refine ⟨by simp, by simp, fun r' => ?_⟩
      rw [List.head?_append_of_ne_nil _ hne] at hslash
      simp [childrenRest, hslash, hread]
    case isFalse hslash =>
      obtain ⟨q, hq, rfl⟩ := Scan.precede_eq_ok_iff.mp hs
      obtain ⟨q₁, q₂, rest, hfirst, hnext, rfl⟩ := Scan.andThen_eq_ok_iff.mp hq
      obtain ⟨hne, rfl, hread⟩ := h.element hfirst
      obtain ⟨-, rfl, hread'⟩ := h.children hnext
      refine ⟨by simp, by simp, fun r' => ?_⟩
      rw [List.head?_append_of_ne_nil _ hne] at hslash
      have hslash' : ¬(q₁ ++ (q₂ ++ r')).head? = some '/' := by rwa [List.head?_append_of_ne_nil _ hne]
      simp only [List.append_assoc, List.cons_append, List.nil_append, childrenRest]
      rw [if_neg (by decide), if_pos trivial, if_neg hslash', hread, Scan.andThen_ok, hread']
      rfl
  case isFalse hopen htag =>
    obtain ⟨q, hq, rfl⟩ := Scan.precede_eq_ok_iff.mp hs
    obtain ⟨-, rfl, hread⟩ := h.children hq
    exact ⟨by simp, by simp, fun r' => by simp [childrenRest, hopen, htag, hread]⟩

end Step

/-- Without fuel nothing is read. -/
theorem LevelReadsAs.zero (jsx : Bool) (m : Nat) : LevelReadsAs jsx 0 m where
  template _ _ _ h := by cases h
  embedded _ _ _ _ _ h := by cases h
  element _ _ _ h := by cases h
  attributes _ _ _ h := by cases h
  children _ _ _ h := by cases h

/-- **More fuel changes nothing** about what templates, embedded expressions and elements read. -/
theorem levelReadsAs (jsx : Bool) {n m : Nat} (hnm : n ≤ m) : LevelReadsAs jsx n m := by
  induction n generalizing m with
  | zero => exact .zero jsx m
  | succ n ih =>
    obtain ⟨m, rfl⟩ : ∃ k, m = k + 1 := ⟨m - 1, by omega⟩
    have h := ih (Nat.le_of_succ_le_succ hnm)
    exact ⟨templateRest_readsAs h, embeddedRest_readsAs h, elementRest_readsAs h, attributesRest_readsAs h,
      childrenRest_readsAs h⟩

end Lexeme

end AppBundler
