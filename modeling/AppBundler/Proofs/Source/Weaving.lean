import Mathlib.Data.List.Chain
import AppBundler.Proofs.Source.Respelling
import AppBundler.Proofs.Source.Sites
/-!
# Texts that differ in their specifiers

A text is taken apart at its imports into the specifiers and what stands outside of them. Two texts that differ in
their specifiers only have the same outside, and the one comes from the other by putting the specifiers of the one in
place of those of the other.
-/

namespace AppBundler

open Lexeme Text

namespace Import

/-- The texts before, between and behind the specifiers of some imports, when `done` bytes have been passed. -/
def outside : (done : Nat) → List Char → List Import → List (List Char)
  | _, s, [] => [s]
  | done, s, i :: r =>
    let (before, rest) := splitBytes (i.start - done) s
    before :: outside i.stop (splitBytes (i.stop - i.start) rest).2 r

/-- Texts with others between them. -/
def weave : List (List Char) → List (List Char) → List Char
  | s :: ss, b :: bs => s ++ (b ++ weave ss bs)
  | ss, _ => ss.flatten

/-- The text that an import stands for, as it is written. -/
def literal (source : List Char) (i : Import) : List Char :=
  (splitBytes (i.stop - i.start) (splitBytes i.start source).2).1

/-! ## Splitting at bytes -/

@[simp]
theorem splitBytes_zero (s : List Char) : splitBytes 0 s = ([], s) := by
  cases s <;> rfl

/-- A text is split behind its front, and further on. -/
theorem splitBytes_add (w : List Char) (n : Nat) (s : List Char) :
    splitBytes (byteLength w + n) (w ++ s) = (w ++ (splitBytes n s).1, (splitBytes n s).2) := by
  induction w with
  | nil => simp [byteLength]
  | cons c w ih =>
    have hpos := c.utf8Size_pos
    rw [byteLength_cons, List.cons_append, splitBytes, if_neg (by omega)]
    rw [show c.utf8Size + byteLength w + n - c.utf8Size = byteLength w + n by omega, ih]
    rfl

/-- A text is split behind its front. -/
@[simp]
theorem splitBytes_append (w s : List Char) : splitBytes (byteLength w) (w ++ s) = (w, s) := by
  have hsplit := splitBytes_add w 0 s
  rwa [Nat.add_zero, splitBytes_zero, List.append_nil] at hsplit

/-- A text is split at the end of a span. -/
theorem splitBytes_span {start stop : Nat} {w : List Char} (h : stop = start + byteLength w) (s : List Char) :
    splitBytes (stop - start) (w ++ s) = (w, s) := by
  rw [h, Nat.add_sub_cancel_left, splitBytes_append]

/-- What is put into a text behind some front leaves the front alone. -/
theorem replaceFrom_append (new : Import → Option String) {done : Nat} {w s : List Char} {imports : List Import}
    (h : ∀ i ∈ imports, done + byteLength w ≤ i.start) :
    replaceFrom new done (w ++ s) imports = w ++ replaceFrom new (done + byteLength w) s imports := by
  induction imports with
  | nil => rfl
  | cons i r ih =>
    obtain ⟨hi, hr⟩ := List.forall_mem_cons.mp h
    rw [replaceFrom, replaceFrom, if_neg (by omega), if_neg (by omega)]
    cases new i with
    | none => exact ih hr
    | some specifier =>
      dsimp only
      rw [show i.start - done = byteLength w + (i.start - (done + byteLength w)) by omega, splitBytes_add]
      simp only [List.append_assoc]

/-- Where nothing is to be put, nothing is changed. -/
theorem replaceFrom_none {new : Import → Option String} {imports : List Import} (h : ∀ i ∈ imports, new i = none)
    (done : Nat) (s : List Char) : replaceFrom new done s imports = s := by
  induction imports with
  | nil => rfl
  | cons i r ih =>
    obtain ⟨hi, hr⟩ := List.forall_mem_cons.mp h
    rw [replaceFrom, hi, ih hr]
    split <;> rfl

/-! ## Woven texts -/

/-- Two texts, of which some bytes have been passed, that differ in what stands between the quotes of some literals.
These are imports, and each of those in the one text goes with one in the other. -/
inductive Woven (Goes : Import → List Char → Import → List Char → Prop) :
    Nat → List Char → Nat → List Char → List Import → List Import → Prop where
  | nil (done done' : Nat) (s : List Char) : Woven Goes done s done' s [] []
  | cons {done done' : Nat} {pre body body' s s' : List Char} {q : Char} {i i' : Import} {r r' : List Import}
    (hq : IsQuote q) (hgoes : Goes i body i' body')
    (hstart : i.start = done + byteLength (pre ++ [q])) (hstop : i.stop = i.start + byteLength body)
    (hstart' : i'.start = done' + byteLength (pre ++ [q])) (hstop' : i'.stop = i'.start + byteLength body')
    (hrest : Woven Goes i.stop (q :: s) i'.stop (q :: s') r r') :
    Woven Goes done (pre ++ q :: (body ++ q :: s)) done' (pre ++ q :: (body' ++ q :: s')) (i :: r) (i' :: r')

namespace Woven

variable {Goes : Import → List Char → Import → List Char → Prop} {done done' : Nat} {s s' : List Char}
  {imports imports' : List Import}

/-- Woven texts may have the same text in front. -/
theorem prepend {w : List Char} (h : Woven Goes (done + byteLength w) s (done' + byteLength w) s' imports imports') :
    Woven Goes done (w ++ s) done' (w ++ s') imports imports' := by
  generalize hd : done + byteLength w = d, hd' : done' + byteLength w = d' at h
  cases h with
  | nil => exact .nil _ _ _
  | @cons _ _ pre body body' s s' q i i' r r' hq hgoes hstart hstop hstart' hstop' hrest =>
    rw [← List.append_assoc, ← List.append_assoc]
    refine .cons hq hgoes ?_ hstop ?_ hstop' hrest
    · rw [hstart, ← hd, List.append_assoc, byteLength_append w, Nat.add_assoc]
    · rw [hstart', ← hd', List.append_assoc, byteLength_append w, Nat.add_assoc]

/-- No import begins before the bytes that have been passed. -/
theorem le_start (h : Woven Goes done s done' s' imports imports') : ∀ i ∈ imports, done ≤ i.start := by
  induction h with
  | nil => exact nofun
  | cons hq hgoes hstart hstop hstart' hstop' hrest ih =>
    refine List.forall_mem_cons.mpr ⟨by omega, fun i hi => ?_⟩
    have hle := ih i hi
    omega

/-- Each import goes with the one in its place. -/
theorem forall₂ (h : Woven Goes done s done' s' imports imports') :
    List.Forall₂ (fun i i' => ∃ body body', Goes i body i' body') imports imports' := by
  induction h with
  | nil => exact .nil
  | cons hq hgoes hstart hstop hstart' hstop' hrest ih => exact .cons ⟨_, _, hgoes⟩ ih

/-- **Woven texts have the same outside.** -/
theorem outside_eq (h : Woven Goes done s done' s' imports imports') :
    outside done' s' imports' = outside done s imports := by
  induction h with
  | nil => rfl
  | @cons done done' pre body body' s s' q i i' r r' hq hgoes hstart hstop hstart' hstop' hrest ih =>
    rw [outside, outside, List.append_cons pre q (body ++ _), List.append_cons pre q (body' ++ _),
      splitBytes_span hstart, splitBytes_span hstart']
    dsimp only
    rw [splitBytes_span hstop, splitBytes_span hstop', ih]

/-- **The one text comes from the other** when what is put in place of each specifier is the one that goes with it. -/
theorem replaceFrom_eq (h : Woven Goes done s done' s' imports imports') {new : Import → Option String}
    (hnew : ∀ i body i' body', Goes i body i' body' →
      new i = some (String.ofList body') ∨ new i = none ∧ body' = body) :
    replaceFrom new done s imports = s' := by
  induction h with
  | nil => rfl
  | @cons done done' pre body body' s s' q i i' r r' hq hgoes hstart hstop hstart' hstop' hrest ih =>
    rw [replaceFrom, if_neg (by omega), List.append_cons pre q (body ++ _), List.append_cons pre q (body' ++ _)]
    rcases hnew _ _ _ _ hgoes with hsome | ⟨hnone, rfl⟩
    · rw [hsome, splitBytes_span hstart]
      dsimp only
      rw [splitBytes_span hstop, ih, String.toList_ofList, List.append_assoc]
    · -- what is left in place counts as passed
      rw [hnone]
      dsimp only
      have hdone : i.stop = done + byteLength ((pre ++ [q]) ++ body') := by
        rw [byteLength_append]
        omega
      rw [hdone] at ih hrest
      rw [← List.append_assoc (pre ++ [q]), replaceFrom_append new hrest.le_start, ih, List.append_assoc]

/-- **Both texts are the same outside** with the specifiers of the one and with those of the other. -/
theorem weave_eq (h : Woven Goes done s done' s' imports imports') {old new : Import → List Char}
    (hgoes : ∀ i body i' body', Goes i body i' body' → body = old i ∧ body' = new i) :
    s = weave (outside done s imports) (imports.map old) ∧ s' = weave (outside done s imports) (imports.map new) := by
  induction h with
  | nil => simp [outside, weave]
  | @cons done done' pre body body' s s' q i i' r r' hq hall hstart hstop hstart' hstop' hrest ih =>
    obtain ⟨hold, hnew⟩ := hgoes _ _ _ _ hall
    rw [outside, List.append_cons pre q (body ++ _), List.append_cons pre q (body' ++ _), splitBytes_span hstart]
    dsimp only
    rw [splitBytes_span hstop, List.map_cons, List.map_cons, weave, weave, ← ih.1, ← ih.2, ← hold, ← hnew]
    exact ⟨rfl, rfl⟩

/-! ### Pairs of characters -/

/-- The one character is nowhere followed by the other. -/
def Apart (a b : Char) (s : List Char) : Prop := s.IsChain fun c d => ¬(c = a ∧ d = b)

theorem hasPart_pair {a b : Char} {s : List Char} : hasPart [a, b] s = false ↔ Apart a b s := by
  induction s with
  | nil => simp [hasPart, Apart]
  | cons c s ih =>
    rw [Apart, List.isChain_cons, ← Apart, ← ih, hasPart, Bool.or_eq_false_iff]
    refine and_congr_left fun _ => ?_
    cases s with
    | nil => simp [dropFront?]
    | cons d s =>
      simp only [dropFront?, List.head?_cons, Option.mem_some_iff, forall_eq']
      by_cases hc : a = c <;> by_cases hd : b = d <;> simp [hc, hd, eq_comm]

/-- A pair stands nowhere when one of its characters does. -/
theorem apart_of_not_mem {a b : Char} {s : List Char} (h : a ∉ s ∨ b ∉ s) : Apart a b s := by
  induction s with
  | nil => exact .nil
  | cons c s ih =>
    rw [List.mem_cons, List.mem_cons, not_or, not_or] at h
    refine List.isChain_cons.mpr ⟨fun d hd => ?_, ih (h.imp And.right And.right)⟩
    rintro ⟨rfl, rfl⟩
    rcases h with h | h
    · exact h.1 rfl
    · exact h.2 (List.mem_of_mem_head? hd)

/-- A pair stands on one side of any other character. -/
theorem apart_between {a b q : Char} {w s : List Char} (ha : q ≠ a) (hb : q ≠ b) :
    Apart a b (w ++ q :: s) ↔ Apart a b w ∧ Apart a b s := by
  rw [Apart, List.isChain_append, List.isChain_cons]
  constructor
  · rintro ⟨hw, ⟨-, hs⟩, -⟩
    exact ⟨hw, hs⟩
  · rintro ⟨hw, hs⟩
    exact ⟨hw, ⟨fun c _ h => ha h.1, hs⟩, fun c _ d hd h => hb ((Option.some.inj hd).trans h.2)⟩

/-- A pair that stands in no specifier stands in both texts or in none. -/
theorem apart_iff (h : Woven Goes done s done' s' imports imports') {a b : Char} (ha : ¬ IsQuote a) (hb : ¬ IsQuote b)
    (hgoes : ∀ i body i' body', Goes i body i' body' → Apart a b body ∧ Apart a b body') :
    Apart a b s ↔ Apart a b s' := by
  induction h with
  | nil => exact Iff.rfl
  | @cons done done' pre body body' s s' q i i' r r' hq hall hstart hstop hstart' hstop' hrest ih =>
    obtain ⟨hbody, hbody'⟩ := hgoes _ _ _ _ hall
    have hqa : q ≠ a := fun heq => ha (heq ▸ hq)
    have hqb : q ≠ b := fun heq => hb (heq ▸ hq)
    have hnil : Apart a b [] := .nil
    have htail : Apart a b s ↔ Apart a b s' := by
      have hquoted := ih
      rw [← List.nil_append (q :: s), ← List.nil_append (q :: s'), apart_between hqa hqb,
        apart_between hqa hqb] at hquoted
      simpa [hnil] using hquoted
    rw [apart_between hqa hqb, apart_between hqa hqb, apart_between hqa hqb, apart_between hqa hqb, htail]
    simp [hbody, hbody']

end Woven

/-! ## From tokens to woven texts -/

section Steps

open Lexer

variable {jsx : Bool} {x y z x' z' : Place} {t : Token} {ts : List Token}

theorem offset_after (p : Position) (s : List Char) : (p.after s).offset = p.offset + byteLength s := by
  induction s generalizing p with
  | nil => rfl
  | cons c s ih =>
    have hstep : (p.step c).offset = p.offset + c.utf8Size := by
      rw [Position.step]
      split <;> rfl
    rw [Position.after, List.foldl_cons, ← Position.after, ih, hstep, byteLength_cons, Nat.add_assoc]

/-- How many bytes are passed in a step, up to its token and with it. -/
theorem Step.offsets (h : Step jsx x t y) : t.start.offset = x.position.offset + byteLength t.gap.toList ∧
    y.position.offset = t.endOffset ∧
    y.position.offset = x.position.offset + byteLength (t.gap.toList ++ t.text.toList) := by
  have hstart : t.start.offset = x.position.offset + byteLength t.gap.toList := by rw [h.start, offset_after]
  have hend : y.position.offset = t.start.offset + byteLength t.text.toList := by rw [h.position, offset_after]
  refine ⟨hstart, ?_, ?_⟩
  · rw [hend, Token.endOffset, utf8ByteSize_eq]
  · rw [hend, hstart, byteLength_append, Nat.add_assoc]

theorem byteLength_quote {q : Char} (hq : IsQuote q) (s : List Char) : byteLength (q :: s) = 1 + byteLength s := by
  rw [byteLength_cons]
  rcases hq with rfl | rfl <;> rfl

/-- The bytes that an import covers in a literal between two quotes. -/
theorem atToken_span {q : Char} {body : List Char} (hq : IsQuote q) (ht : t.text.toList = q :: (body ++ [q]))
    (kind : ImportKind) : (atToken t kind).start = t.start.offset + byteLength [q] ∧
      (atToken t kind).stop = (atToken t kind).start + byteLength body ∧
      t.endOffset = (atToken t kind).stop + byteLength [q] := by
  have hone : byteLength [q] = 1 := byteLength_quote hq []
  have hend : t.endOffset = t.start.offset + (1 + (byteLength body + 1)) := by
    rw [Token.endOffset, utf8ByteSize_eq, ht, byteLength_quote hq, byteLength_append, hone]
  refine ⟨?_, ?_, ?_⟩ <;> simp only [atToken, hone, hend] <;> omega

section Step

variable {G : Import → List Char → Import → List Char → Prop} {t' : Token} {imports imports' : List Import}
  (h : Step jsx x t y) (h' : Step jsx x' t' y') (hgap : t'.gap = t.gap)
  (hwoven : Woven G y.position.offset y.rest y'.position.offset y'.rest imports imports')
include h h' hgap hwoven

/-- Texts are woven before a token that has the same text in both. -/
theorem Woven.same (htext : t'.text = t.text) :
    Woven G x.position.offset x.rest x'.position.offset x'.rest imports imports' := by
  obtain ⟨-, -, hpassed⟩ := Step.offsets h
  obtain ⟨-, -, hpassed'⟩ := Step.offsets h'
  rw [hgap, htext] at hpassed'
  rw [h.rest_eq, h'.rest_eq, hgap, htext, ← List.append_assoc, ← List.append_assoc]
  refine Woven.prepend ?_
  rwa [← hpassed, ← hpassed']

/-- Texts are woven before a literal whose content is that of an import. -/
theorem Woven.site {q : Char} {body body' : List Char} {kind : ImportKind} (hq : IsQuote q)
    (htext : t.text.toList = q :: (body ++ [q])) (htext' : t'.text.toList = q :: (body' ++ [q]))
    (hgoes : G (atToken t kind) body (atToken t' kind) body') :
    Woven G x.position.offset x.rest x'.position.offset x'.rest (atToken t kind :: imports)
      (atToken t' kind :: imports') := by
  obtain ⟨hstart, hend, -⟩ := Step.offsets h
  obtain ⟨hstart', hend', -⟩ := Step.offsets h'
  obtain ⟨hs₁, hs₂, hs₃⟩ := atToken_span hq htext kind
  obtain ⟨hs₁', hs₂', hs₃'⟩ := atToken_span hq htext' kind
  have hquoted (b u : List Char) : q :: (b ++ [q]) ++ u = q :: (b ++ q :: u) := by simp
  rw [hend, hend', hs₃, hs₃'] at hwoven
  rw [hstart, Nat.add_assoc, ← byteLength_append] at hs₁
  rw [hstart', hgap, Nat.add_assoc, ← byteLength_append] at hs₁'
  rw [h.rest_eq, h'.rest_eq, hgap, htext, htext', hquoted, hquoted]
  exact .cons hq hgoes hs₁ hs₂ hs₁' hs₂' hwoven.prepend

end Step

/-- **Steps over the same tokens but for the contents of literals** go over woven texts. -/
theorem woven_of_steps {G : Import → List Char → Import → List Char → Prop} {f : Token → Token} {sites : List Site}
    (h : Steps jsx x ts z) (h' : Steps jsx x' (ts.map f) z') (hz : z'.rest = z.rest) (hts : ts.Nodup)
    (hsites : (sites.map Prod.fst).Sublist ts) (hgap : ∀ t ∈ ts, (f t).gap = t.gap)
    (hsame : ∀ t ∈ ts, t ∉ sites.map Prod.fst → (f t).text = t.text)
    (hgoes : ∀ p ∈ sites, ∃ q body body', IsQuote q ∧ p.1.text.toList = q :: (body ++ [q]) ∧
      (f p.1).text.toList = q :: (body' ++ [q]) ∧ G (ofSite id p) body (ofSite f p) body') :
    Woven G x.position.offset x.rest x'.position.offset x'.rest (sites.map (ofSite id)) (sites.map (ofSite f)) := by
  induction h generalizing x' sites with
  | refl x =>
    obtain rfl : sites = [] := List.map_eq_nil_iff.mp (List.sublist_nil.mp hsites)
    cases h'
    rw [hz]
    exact .nil _ _ _
  | @head x y z t ts hstep hsteps ih =>
    rw [List.map_cons] at h'
    cases h' with
    | @head _ y' _ _ _ hstep' hsteps' =>
    obtain ⟨hnew, hnodup⟩ := List.nodup_cons.mp hts
    obtain ⟨hgapt, hgaps⟩ := List.forall_mem_cons.mp hgap
    obtain ⟨hsamet, hsames⟩ := List.forall_mem_cons.mp hsame
    rcases List.sublist_cons_iff.mp hsites with hlater | ⟨r, hr, hlater⟩
    · -- the token is no site, and has its own text
      have hother : t ∉ sites.map Prod.fst := fun hmem => hnew (hlater.subset hmem)
      exact .same hstep hstep' hgapt (ih hsteps' hz hnodup hlater hgaps hsames hgoes) (hsamet hother)
    · obtain ⟨p, sites, rfl, rfl, rfl⟩ := List.map_eq_cons_iff.mp hr
      obtain ⟨⟨q, body, body', hq, htext, htext', hall⟩, hgoes⟩ := List.forall_mem_cons.mp hgoes
      -- no later token is the one at this site
      have hsame' : ∀ t ∈ ts, t ∉ sites.map Prod.fst → (f t).text = t.text := by
        intro t ht hmem
        refine hsames t ht fun hcons => ?_
        rcases List.mem_cons.mp hcons with rfl | hcons
        · exact hnew ht
        · exact hmem hcons
      exact .site hstep hstep' hgapt (ih hsteps' hz hnodup hlater hgaps hsame' hgoes) hq htext htext' hall

end Steps

end Import

end AppBundler
