import AppBundler.Proofs.Source.Tree.Exprs
import AppBundler.Proofs.Source.Tree.Printing
/-!
# Words that are read as a type

At a place that asks for some tightness, the words of a type are read up to a word that may follow such a place. What is
read where much tightness is asked for is read where less is, and in parentheses anything is. Since no arrow stands among
the words, no parenthesis is taken for the parameters of a function.
-/

namespace AppBundler

open Lexeme

/-- The tokens ahead are those of some words. -/
def Cursor.Spells (c : Cursor) (ws : List Word) : Prop := ∃ p, c.ahead = Word.tokensAt p ws

namespace Cursor.Spells

variable {c : Cursor} {w : Word} {ws vs : List Word} {text : String}

theorem length_eq (h : c.Spells ws) : c.ahead.length = ws.length := by
  obtain ⟨p, h⟩ := h
  rw [h]
  clear h
  induction ws generalizing p with
  | nil => rfl
  | cons w ws ih => rw [Word.tokensAt_cons, List.length_cons, List.length_cons, ih]

theorem next (h : c.Spells (w :: ws)) : c.next.Spells ws := by
  obtain ⟨p, h⟩ := h
  exact ⟨p.after w.chars, by simp only [Cursor.next, h, Word.tokensAt_cons]⟩

theorem peek? (h : c.Spells (w :: ws)) : ∃ p, c.peek? = some (w.token p) := by
  obtain ⟨p, h⟩ := h
  exact ⟨p, by rw [Cursor.peek?, h, Word.tokensAt_cons, List.head?_cons]⟩

/-- What is told from the token of a word is told from the word. -/
theorem any_peekAt? {q : Token → Bool} {q' : Word → Bool} (hq : ∀ w p, q (w.token p) = q' w) (h : c.Spells ws) (n : Nat) :
    (c.peekAt? n).any q = ws[n]?.any q' := by
  obtain ⟨p, h⟩ := h
  rw [Cursor.peekAt?, h]
  clear h
  induction ws generalizing p n with
  | nil => rfl
  | cons w ws ih =>
    cases n with
    | zero => exact hq w p
    | succ n => exact ih n _

theorem nthIs (h : c.Spells ws) (n : Nat) (text : String) :
    c.nthIs n text = ws[n]?.any fun w => w.kind = .punct && w.text = text :=
  h.any_peekAt? (fun _ _ => rfl) n

theorem nthIsIdent (h : c.Spells ws) (n : Nat) (text : String) :
    c.nthIsIdent n text = ws[n]?.any fun w => w.kind = .ident && w.text = text :=
  h.any_peekAt? (fun _ _ => rfl) n

theorem nthIsKind (h : c.Spells ws) (n : Nat) (kind : TokenKind) :
    c.nthIsKind n kind = ws[n]?.any fun w => w.kind = kind :=
  h.any_peekAt? (fun _ _ => rfl) n

theorem nextIs (h : c.Spells (w :: ws)) (text : String) : c.nextIs text = (w.kind = .punct && w.text = text) :=
  h.nthIs 0 text

theorem nextIsIdent (h : c.Spells (w :: ws)) (text : String) : c.nextIsIdent text = (w.kind = .ident && w.text = text) :=
  h.nthIsIdent 0 text

theorem newlineNext (h : c.Spells (w :: ws)) : c.newlineNext = false := by
  obtain ⟨p, hp⟩ := h.peek?
  rw [Cursor.newlineNext, hp, Option.any_some, Token.newlineBefore, Word.token, Word.gap, String.toList_ofList]
  cases w.spaced <;> rfl

/-- A mark that comes next is passed. -/
theorem eat? {spaced : Bool} (h : c.Spells (TypeExpr.mark spaced text :: ws)) : c.eat? text = some c.next := by
  rw [Cursor.eat?, h.nextIs]
  simp [TypeExpr.mark]

theorem expect {spaced : Bool} (h : c.Spells (TypeExpr.mark spaced text :: ws)) : c.expect text = .ok c.next := by
  rw [Cursor.expect, h.eat?]

/-- Another word is left in its place. -/
theorem eat?_eq_none (h : c.Spells (w :: ws)) (hw : w.kind = .punct → w.text ≠ text) : c.eat? text = none := by
  rw [Cursor.eat?, h.nextIs, if_neg]
  simpa using hw

theorem skip_eq_self (h : c.Spells (w :: ws)) (hw : w.kind = .punct → w.text ≠ text) : c.skip text = c := by
  rw [Cursor.skip, h.eat?_eq_none hw, Option.getD_none]

end Cursor.Spells

namespace TypeExpr

variable {t : TypeExpr} {ts : List TypeExpr} {c : Cursor} {v w : Word} {ws vs : List Word} {text : String}
  {n m tight : Nat} {i : Inner} {spaced : Bool}

/-! ## Parentheses are no parameters -/

/-- No arrow is left at the place. -/
def NoArrowLeft (c : Cursor) : Prop := ∀ t ∈ c.ahead, t.text ≠ "=>"

theorem mem_ahead_of_iterate {k : Nat} {t : Token} (h : t ∈ (Cursor.next^[k] c).ahead) : t ∈ c.ahead := by
  induction k generalizing c with
  | zero => exact h
  | succ k ih =>
    have hnext := ih h
    rw [Cursor.next] at hnext
    split at hnext
    · exact hnext
    · rename_i t' r hahead
      rw [hahead]
      exact List.mem_cons_of_mem _ hnext

/-- Where no arrow is left, none is left further on. -/
theorem alike_self (h : NoArrowLeft c) : Cursor.Alike .exact (fun d _ => NoArrowLeft d) c c :=
  .self fun _ t ht => h t (mem_ahead_of_iterate ht)

/-- Where no arrow is left, no function type comes next. -/
theorem skipFunction?_eq_none (h : NoArrowLeft c) (hn : c.ahead.length ≤ n) :
    skipFunction? (.ofDepth n) c = none := by
  have hlist := Param.parseList_rel (Inner.ofDepth_rel hn hn) (alike_self h) (Nat.le_refl _)
  rw [skipFunction?]
  cases houtcome : Param.parseList (.ofDepth n) c with
  | error => rfl
  | ok x =>
    obtain ⟨ps, d⟩ := x
    rw [houtcome] at hlist
    obtain ⟨-, halike, -⟩ := hlist.of_ok
    -- whatever was taken for parameters, the token behind it is one of those that were ahead
    have hnone : d.eat? "=>" = none := by
      rw [Cursor.eat?, if_neg]
      intro harrow
      cases hahead : d.ahead with
      | nil => simp [Cursor.nextIs, Cursor.nthIs, Cursor.peekAt?, hahead] at harrow
      | cons t r =>
        have htext : t.text = "=>" := by
          simp only [Cursor.nextIs, Cursor.nthIs, Cursor.peekAt?, hahead, List.getElem?_cons_zero, Option.any_some,
            Token.isPunct, Bool.and_eq_true, decide_eq_true_eq] at harrow
          exact harrow.2
        exact halike.place t (by rw [hahead]; exact List.mem_cons_self) htext
    simp only [hnone]

/-! ## Reading at a place of some tightness -/

/-- No more than `n` words, and no arrow among them. -/
def Fits (n : Nat) (ws : List Word) : Prop := ws.length ≤ n ∧ Plain ws

theorem Fits.drop (us : List Word) (h : Fits n (us ++ ws)) : Fits n ws := by
  obtain ⟨hlength, hplain⟩ := h
  rw [List.length_append] at hlength
  exact ⟨by omega, fun w hw => hplain w (List.mem_append_right _ hw)⟩

/-- Behind a word one level less is enough. -/
theorem Fits.tail (h : Fits (n + 1) (w :: ws)) : Fits n ws := by
  obtain ⟨hlength, hplain⟩ := h
  rw [List.length_cons] at hlength
  exact ⟨by omega, fun w hw => hplain w (List.mem_cons_of_mem _ hw)⟩

theorem Fits.exists_succ (h : Fits n (w :: ws)) : ∃ m, n = m + 1 := by
  have hlength := h.1
  rw [List.length_cons] at hlength
  exact ⟨n - 1, by omega⟩

theorem skipFunction?_of_fits (h : c.Spells ws) (hfits : Fits n ws) : skipFunction? (.ofDepth n) c = none := by
  refine skipFunction?_eq_none (fun t ht => ?_) (h.length_eq.trans_le hfits.1)
  obtain ⟨p, h⟩ := h
  rw [h] at ht
  have hplain := hfits.2
  clear h hfits
  induction ws generalizing p with
  | nil => cases ht
  | cons w ws ih =>
    rcases List.mem_cons.mp ht with rfl | ht
    · exact hplain w List.mem_cons_self
    · exact ih _ ht fun w hw => hplain w (List.mem_cons_of_mem _ hw)

/-- The punctuators that a type may be followed by at a place that asks for some tightness. -/
def stops (tight : Nat) : List String := ["[", "&", "|"].drop (3 - tight) ++ [";", ")", ">", ","]

/-- A word that ends a type at a place that asks for some tightness. -/
def Stops (tight : Nat) (v : Word) : Prop := v.kind = .punct ∧ v.text ∈ stops tight

theorem Stops.mono (h : Stops tight v) {tight' : Nat} (hle : tight ≤ tight') : Stops tight' v := by
  refine ⟨h.1, ?_⟩
  have hsub : ["[", "&", "|"].drop (3 - tight) ⊆ ["[", "&", "|"].drop (3 - tight') :=
    (List.drop_suffix_drop_left _ (by omega)).subset
  exact List.append_subset.mpr ⟨fun x hx => List.mem_append_left _ (hsub hx), List.subset_append_right _ _⟩ h.2

theorem Stops.ne (h : Stops tight v) (htext : text ∉ stops tight) : v.kind = .punct → v.text ≠ text := by
  rintro - rfl
  exact htext h.2

/-- A parser reads the words as a type and stops behind them. -/
def Reads (tight : Nat) (f : Inner → Cursor → Parsed (TypeExpr × Cursor)) (ws : List Word) (t : TypeExpr) : Prop :=
  ∀ ⦃n v vs⦄, Stops tight v → Fits n (ws ++ v :: vs) → ∀ ⦃c⦄, c.Spells (ws ++ v :: vs) →
    ∃ d, f (.ofDepth n) c = .ok (t, d) ∧ d.Spells (v :: vs)

/-- The words are read as a type without suffixes, with which the reading of suffixes has come to the type. -/
def ReadsSuffixed (ws : List Word) (t : TypeExpr) : Prop :=
  ∀ ⦃n v vs⦄, Stops 3 v → Fits n (ws ++ v :: vs) → ∀ ⦃c⦄, c.Spells (ws ++ v :: vs) →
    ∃ u c' d k, parsePrimary (.ofDepth n) c = .ok (u, c') ∧ k ≤ ws.length ∧ d.Spells (v :: vs) ∧
      ∀ m, parseSuffixes u (m + k) c' = parseSuffixes t m d

/-- The words are read as a type at a place that asks for some tightness. -/
def ReadsAt : (tight : Nat) → List Word → TypeExpr → Prop
  | 0 => Reads 0 parse
  | 1 => Reads 1 parseIntersection
  | 2 => Reads 2 parsePostfix
  | _ + 3 => ReadsSuffixed

theorem Reads.suffixed (h : Reads 3 parsePrimary ws t) : ReadsSuffixed ws t := by
  intro n v vs hv hfits c hc
  obtain ⟨d, hprimary, hd⟩ := h hv hfits hc
  exact ⟨t, d, d, 0, hprimary, Nat.zero_le _, hd, fun _ => rfl⟩

theorem rounds_ofDepth (n : Nat) : (Inner.ofDepth n).rounds = n := by cases n <;> rfl

/-- Suffixes end before what is no bracket. -/
theorem ReadsSuffixed.reads (h : ReadsSuffixed ws t) : Reads 2 parsePostfix ws t := by
  intro n v vs hv hfits c hc
  obtain ⟨u, c', d, k, hprimary, hk, hd, hsuffixes⟩ := h (hv.mono (by decide)) hfits hc
  -- every suffix took a word, so a round is left to see that no more follow
  obtain ⟨m, rfl⟩ : ∃ m, n = m + 1 + k := by
    have hlength := hfits.1
    rw [List.length_append, List.length_cons] at hlength
    exact ⟨n - k - 1, by omega⟩
  refine ⟨d, ?_, hd⟩
  have hbracket : ¬ (d.nextIs "[" = true) := by
    rw [hd.nextIs]
    simpa using hv.ne (by decide)
  simp only [parsePostfix, hprimary, bind, Except.bind, rounds_ofDepth, hsuffixes, parseSuffixes, hbracket,
    Bool.false_and, Bool.false_eq_true, if_false]

/-- The words begin with one that a type may begin with. -/
def StartsOpen (ws : List Word) : Prop := ∃ w more, ws = w :: more ∧ Opens w.kind w.text

theorem Begins.startsOpen {ws : Bool → List Word} (h : Begins ws) (spaced : Bool) : StartsOpen (ws spaced) := by
  obtain ⟨hws, hopens⟩ := h
  exact ⟨_, _, hws spaced, hopens⟩

theorem StartsOpen.skip (h : StartsOpen ws) (hc : c.Spells (ws ++ vs)) (htext : text ∉ ["(", "\x7b", "-"]) :
    c.skip text = c := by
  obtain ⟨w, more, rfl, hopens⟩ := h
  refine hc.skip_eq_self ?_
  rintro hkind rfl
  exact htext (hopens hkind)

theorem length_le_followers (tight : Nat) (separator : Word) (ts : List TypeExpr) :
    ts.length ≤ (followers tight separator ts).length := by
  induction ts with
  | nil => exact Nat.zero_le _
  | cons t ts ih =>
    rw [followers, List.length_cons, List.length_cons, List.length_append]
    omega

theorem followers_cons_append (tight : Nat) (separator : Word) (t : TypeExpr) (ts : List TypeExpr) (vs : List Word) :
    followers tight separator (t :: ts) ++ vs =
      separator :: (enclosed tight t t.bare true ++ (followers tight separator ts ++ vs)) := by
  rw [followers, List.cons_append, List.append_assoc]

/-- There are fewer operands than words. -/
theorem Fits.operands_lt {separator : Word} (h : Fits n (ws ++ (followers tight separator ts ++ v :: vs))) : ts.length < n := by
  have hlength := h.1
  have hmore := length_le_followers tight separator ts
  simp only [List.length_append, List.length_cons] at hlength
  omega

/-- An operand and those behind an operator are read one by one. -/
theorem reads_operands {operator : String} {operand : Inner → Cursor → Parsed (TypeExpr × Cursor)} {low : Nat}
    (hoperator : operator ∈ stops tight) (hlow : low ≤ tight) (hend : operator ∉ stops low)
    (hts : ∀ t ∈ ts, Reads tight operand (enclosed tight t t.bare true) t) (h : Reads tight operand ws t) (hv : Stops low v)
    (hfits : Fits n (ws ++ (followers tight (mark true operator) ts ++ v :: vs)))
    (hc : c.Spells (ws ++ (followers tight (mark true operator) ts ++ v :: vs))) (hm : ts.length < m) :
    ∃ c' d, operand (.ofDepth n) c = .ok (t, c') ∧
      parseOperands operator (operand (.ofDepth n)) m c' = .ok (ts, d) ∧ d.Spells (v :: vs) := by
  obtain ⟨m, rfl⟩ : ∃ k, m = k + 1 := ⟨m - 1, by omega⟩
  -- each operand but the last is followed by an operator, the last one by what follows all of them
  induction ts generalizing ws t c m with
  | nil =>
    rw [followers, List.nil_append] at hfits hc
    obtain ⟨c', hoperand, hc'⟩ := h (hv.mono hlow) hfits hc
    refine ⟨c', c', hoperand, ?_, hc'⟩
    simp only [parseOperands, hc'.eat?_eq_none (hv.ne hend)]
  | cons t' ts ih =>
    rw [followers_cons_append] at hfits hc
    obtain ⟨c₁, hoperand, hc₁⟩ := h ⟨rfl, hoperator⟩ hfits hc
    rw [List.length_cons] at hm
    obtain ⟨m, rfl⟩ : ∃ k, m = k + 1 := ⟨m - 1, by omega⟩
    obtain ⟨c', d, hfirst, hmore, hd⟩ := ih (fun t ht => hts t (List.mem_cons_of_mem _ ht)) (hts t' List.mem_cons_self)
      (Fits.drop [_] (Fits.drop ws hfits)) hc₁.next m (by omega)
    refine ⟨c₁, d, hoperand, ?_, hd⟩
    rw [parseOperands, hc₁.eat?]
    simp only [hfirst, bind, Except.bind, hmore]

/-- What an operand and those behind it make: a single one stands for itself. -/
def joined (operation : List TypeExpr → TypeExpr) (t : TypeExpr) : List TypeExpr → TypeExpr
  | [] => t
  | t' :: ts => operation (t :: t' :: ts)

/-- Operands of an intersection are read as one. -/
theorem Reads.intersection (hfirst : StartsOpen ws) (h : Reads 2 parsePostfix ws t)
    (hts : ∀ t ∈ ts, Reads 2 parsePostfix (enclosed 2 t t.bare true) t) :
    Reads 1 parseIntersection (ws ++ followers 2 (mark true "&") ts) (joined .intersection t ts) := by
  intro n v vs hv hfits c hc
  rw [List.append_assoc] at hfits hc
  obtain ⟨c', d, hoperand, hmore, hd⟩ :=
    reads_operands (by decide) (by decide) (by decide) hts h hv hfits hc hfits.operands_lt
  refine ⟨d, ?_, hd⟩
  rw [parseIntersection, hfirst.skip hc (by decide), hoperand, rounds_ofDepth]
  simp only [bind, Except.bind, hmore]
  cases ts <;> rfl

/-- Operands of a union are read as one, and no condition follows them. -/
theorem Reads.union (hfirst : StartsOpen ws) (h : Reads 1 parseIntersection ws t)
    (hts : ∀ t ∈ ts, Reads 1 parseIntersection (enclosed 1 t t.bare true) t) :
    Reads 0 parse (ws ++ followers 1 (mark true "|") ts) (joined .union t ts) := by
  intro n v vs hv hfits c hc
  rw [List.append_assoc] at hfits hc
  obtain ⟨c', d, hoperand, hmore, hd⟩ :=
    reads_operands (by decide) (by decide) (by decide) hts h hv hfits hc hfits.operands_lt
  refine ⟨d, ?_, hd⟩
  have hunion : parseUnion (.ofDepth n) c = .ok (joined .union t ts, d) := by
    rw [parseUnion, hfirst.skip hc (by decide), hoperand, rounds_ofDepth]
    simp only [bind, Except.bind, hmore]
    cases ts <;> rfl
  have hextends : d.nextIsIdent "extends" = false := by
    rw [hd.nextIsIdent, hv.1]
    rfl
  rw [parse, hunion]
  simp only [bind, Except.bind, hextends, Bool.false_and, Bool.false_eq_true, if_false]

/-- A type that is read at a place is read where less tightness is asked for. -/
theorem ReadsAt.loosen (hfirst : StartsOpen ws) (h : ReadsAt (tight + 1) ws t) : ReadsAt tight ws t := by
  match tight, h with
  | 0, h =>
    have hread := Reads.union hfirst h (List.forall_mem_nil _)
    rwa [followers, List.append_nil] at hread
  | 1, h =>
    have hread := Reads.intersection hfirst h (List.forall_mem_nil _)
    rwa [followers, List.append_nil] at hread
  | 2, h => exact ReadsSuffixed.reads h
  | _ + 3, h => exact h

theorem ReadsAt.mono (hfirst : StartsOpen ws) {low : Nat} (hle : low ≤ tight) (h : ReadsAt tight ws t) :
    ReadsAt low ws t := by
  induction tight, hle using Nat.le_induction with
  | base => exact h
  | succ tight hle ih => exact ih (h.loosen hfirst)

/-- A type in parentheses is read as the type. -/
theorem Reads.parenthesized (h : ReadsAt 0 ws t) :
    Reads 3 parsePrimary (mark spaced "(" :: (ws ++ [mark false ")"])) t := by
  intro n v vs hv hfits c hc
  rw [List.cons_append, List.append_assoc, List.singleton_append] at hfits hc
  obtain ⟨n, rfl⟩ := hfits.exists_succ
  have hnone := skipFunction?_of_fits hc hfits
  obtain ⟨p, hpeek⟩ := hc.peek?
  obtain ⟨d, htype, hd⟩ := h ⟨rfl, by decide⟩ hfits.tail hc.next
  refine ⟨d.next, ?_, hd.next⟩
  have htype : (Inner.ofDepth (n + 1)).type c.next = .ok (t, d) := htype
  have hprimary : parsePrimary (.ofDepth (n + 1)) c = parseParenthesized (.ofDepth (n + 1)) c := by
    rw [parsePrimary, hpeek]
    rfl
  simp only [hprimary, parseParenthesized, hnone, htype, bind, Except.bind, hd.expect]

/-- A type is read at the place that it is written for, in parentheses or without. -/
theorem ReadsAt.enclosed (hbegins : Begins t.bare) (h : ∀ spaced, ReadsAt t.tightness (t.bare spaced) t)
    (htight : tight ≤ 3) (spaced : Bool) : ReadsAt tight (enclosed tight t t.bare spaced) t := by
  have hfirst := (hbegins.enclosed tight t).startsOpen spaced
  rw [TypeExpr.enclosed] at hfirst ⊢
  split
  · rename_i hloose
    rw [if_pos hloose] at hfirst
    have hinner := (h false).mono (hbegins.startsOpen false) (Nat.zero_le _)
    exact ReadsAt.mono hfirst htight (Reads.suffixed (Reads.parenthesized hinner))
  · rename_i hloose
    exact (h spaced).mono (hbegins.startsOpen spaced) (by omega)

end TypeExpr

end AppBundler
