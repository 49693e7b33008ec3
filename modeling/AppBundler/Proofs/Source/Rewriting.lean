import AppBundler.Proofs.Source.Weaving
/-!
# New specifiers in place of old ones

Specifiers that are put in place of the old ones between the same quotes leave a text with the same tokens but for
those literals, and so with the same imports in the same order.
-/

namespace AppBundler

open Lexeme Text

/-! ## Tokens by their places -/

/-- A source taken apart behind a token. -/
def Token.cut (source : String) (t : Token) : List Char × List Char := Import.splitBytes t.endOffset source.toList

namespace Lexer

variable {jsx : Bool} {x y z : Place} {t : Token} {ts : List Token}

/-- Each token is read in a step. -/
theorem Steps.exists_step_of_mem (h : Steps jsx x ts z) (ht : t ∈ ts) : ∃ x y, Step jsx x t y := by
  induction h with
  | refl => cases ht
  | head hstep hsteps ih =>
    rcases List.mem_cons.mp ht with rfl | ht
    · exact ⟨_, _, hstep⟩
    · exact ih ht

/-- A source is taken apart behind a token at the place to which the step over the token goes. -/
theorem Step.cut (h : Step jsx x t y) {source : String} {before line : List Char} (hx : x.At source before line) :
    ∃ front, t.cut source = (front, y.rest) ∧ source.toList = front ++ y.rest ∧ y.At source front [] := by
  obtain ⟨-, hy⟩ := h.standsIn hx
  refine ⟨_, ?_, hy.source_eq, hy⟩
  have hend : t.endOffset = byteLength (before ++ (line ++ t.gap.toList) ++ t.text.toList) := by
    rw [byteLength_append, Token.endOffset, utf8ByteSize_eq, h.start_counted hx]
    rfl
  rw [Token.cut, hend, hy.source_eq]
  exact Import.splitBytes_append _ _

/-- A string literal stands between two quotes, and fits between them when no backslash is in it. -/
theorem Steps.exists_body (h : Steps jsx x ts z) (ht : t ∈ ts) (hkind : t.kind = .string) :
    ∃ q body, IsQuote q ∧ t.text.toList = q :: (body ++ [q]) ∧ ('\\' ∉ body → FitsBetween q body) := by
  obtain ⟨x, y, hstep⟩ := h.exists_step_of_mem ht
  have hlexeme := hstep.lexeme
  rw [hkind] at hlexeme
  exact exists_body_of_lexeme hlexeme

end Lexer

namespace CoverFrom

variable {source : String} {k : Nat} {ts : List Token}

/-- Each token stands in the source. -/
theorem exists_standsIn (h : CoverFrom source k ts) : ∀ t ∈ ts, ∃ k, t.StandsIn source k := by
  induction h with
  | nil => exact nofun
  | cons ht _ ih => exact List.forall_mem_cons.mpr ⟨⟨_, ht⟩, ih⟩

/-- Tokens begin one behind the other. -/
theorem starts (h : CoverFrom source k ts) : ts.Pairwise fun t u => t.start.offset < u.start.offset := by
  refine h.disjoint.imp_of_mem fun ht _ hle => ?_
  exact lt_of_lt_of_le (h.start_lt_end _ ht) hle

end CoverFrom

/-- Distinct values that are related to others one by one are mapped to them. -/
theorem exists_map_of_forall₂ {α : Type} {R : α → α → Prop} {l l' : List α} (h : List.Forall₂ R l l') (hl : l.Nodup) :
    ∃ f : α → α, l' = l.map f ∧ (∀ a ∈ l, R a (f a)) ∧ ∀ a ∉ l, f a = a := by
  classical
  induction h with
  | nil => exact ⟨id, rfl, nofun, fun _ _ => rfl⟩
  | @cons a b l l' hab hall ih =>
    obtain ⟨hnew, hl⟩ := List.nodup_cons.mp hl
    obtain ⟨f, rfl, hf, hid⟩ := ih hl
    have hother : ∀ c ∈ l, Function.update f a b c = f c := by
      intro c hc
      exact Function.update_of_ne (fun (hca : c = a) => hnew (hca ▸ hc)) _ _
    refine ⟨Function.update f a b, ?_, List.forall_mem_cons.mpr ⟨?_, fun c hc => ?_⟩, fun c hc => ?_⟩
    · rw [List.map_cons, Function.update_self, List.map_congr_left hother]
    · rwa [Function.update_self]
    · rw [hother c hc]
      exact hf c hc
    · rw [List.mem_cons, not_or] at hc
      rw [Function.update_of_ne hc.1]
      exact hid c hc.2

namespace Import

variable {source : String} {t : Token} {ts : List Token}

/-- Without backslashes a literal stands for what is written. -/
theorem unescape_eq_self {body : List Char} (h : '\\' ∉ body) : Token.unescape body = body := by
  induction body with
  | nil => rfl
  | cons c body ih =>
    rw [List.mem_cons, not_or] at h
    rw [Token.unescape, ih h.2]
    · exact fun hback => absurd hback.symm h.1
    · exact fun _ _ hback => absurd hback.symm h.1

/-- What is written between the quotes of a literal. -/
theorem literal_atToken {k : Nat} {q : Char} {body : List Char} (h : t.StandsIn source k) (hq : IsQuote q)
    (ht : t.text.toList = q :: (body ++ [q])) (kind : ImportKind) : (atToken t kind).literal source.toList = body := by
  obtain ⟨before, gap, behind, hsource, -, -, hstart, -⟩ := h
  obtain ⟨hspan, hstop, -⟩ := atToken_span hq ht kind
  have hshape : source.toList = (before ++ gap ++ [q]) ++ (body ++ (q :: behind)) := by
    rw [hsource, ht]
    simp
  have hbefore : (atToken t kind).start = byteLength (before ++ gap ++ [q]) := by
    rw [hspan, hstart, byteLength_append _ [q]]
    rfl
  rw [literal, hstop, Nat.add_sub_cancel_left, hbefore, hshape, splitBytes_append, splitBytes_append]

/-- A text that is a specifier as it is, and is no part of a mark of a closing tag. -/
def IsPlain (s : List Char) : Prop := ∀ c ∈ s, c ∉ ['\\', '<', '>']

instance : DecidablePred IsPlain := List.decidableBAll _

theorem IsPlain.not_mem_backslash {s : List Char} (h : IsPlain s) : '\\' ∉ s := fun hmem => h _ hmem (by simp)

/-- What may be put in place of a specifier: a plain text that fits wherever the specifier does. -/
def IsReplacement (specifier : String) (new : List Char) : Prop :=
  IsPlain new ∧ ∀ q, IsQuote q → FitsBetween q specifier.toList → FitsBetween q new

/-- A specifier and the one that is put in its place, each as it is written. -/
structure Replaced (new : String → List Char) (i : Import) (body : List Char) (i' : Import) (body' : List Char) :
    Prop where
  specifier : i.specifier = String.ofList body
  specifier' : i'.specifier = String.ofList body'
  kind : i'.kind = i.kind
  new : body' = new i.specifier
  plain : IsPlain body
  plain' : IsPlain body'

/-- The specifier that a literal stands for. -/
theorem specifier_atToken {q : Char} {body : List Char} (ht : t.text.toList = q :: (body ++ [q])) (hbody : IsPlain body)
    (kind : ImportKind) : (atToken t kind).specifier = String.ofList body := by
  simp [atToken, ht, unescape_eq_self hbody.not_mem_backslash]

/-! ## Literals at sites -/

section Sites

variable {jsx : Bool} {sites : List Site} {new : String → List Char}

/-- Tokens that begin one behind the other are distinct. -/
theorem nodup_of_starts (h : ts.Pairwise fun t u => t.start.offset < u.start.offset) : ts.Nodup := by
  refine h.imp fun hlt heq => ?_
  rw [heq] at hlt
  exact Nat.lt_irrefl _ hlt

/-- Sites whose imports begin one behind the other stand in the order of their tokens. -/
theorem sublist_sites (hstarts : ts.Pairwise fun t u => t.start.offset < u.start.offset)
    (hmem : ∀ p ∈ sites, p.1 ∈ ts) (hsorted : (sites.map (ofSite id)).Pairwise fun i j => i.start < j.start) :
    (sites.map Prod.fst).Sublist ts := by
  have hantisymm : Std.Antisymm fun t u : Token => t.start.offset < u.start.offset :=
    ⟨fun _ _ hlt hgt => absurd hlt (Nat.lt_asymm hgt)⟩
  have hordered : (sites.map Prod.fst).Pairwise fun t u => t.start.offset < u.start.offset := by
    rw [List.pairwise_map] at hsorted ⊢
    exact hsorted.imp fun hlt => Nat.lt_of_add_lt_add_right hlt
  have hdistinct : (sites.map Prod.fst).Nodup := nodup_of_starts hordered
  refine List.sublist_of_subperm_of_pairwise (List.subperm_of_subset hdistinct ?_) hordered hstarts
  intro t ht
  obtain ⟨p, hp, rfl⟩ := List.mem_map.mp ht
  exact hmem p hp

/-- A literal at a site, and what its text becomes when a new specifier is put in place of the old one. -/
structure Literal (new : String → List Char) (t : Token) (q : Char) (body : List Char) : Prop where
  quote : IsQuote q
  text : t.text.toList = q :: (body ++ [q])
  plain : IsPlain body
  plain_new : IsPlain (new (String.ofList body))
  fits_new : FitsBetween q (new (String.ofList body))

/-- Each site is a literal that stands as it is written. -/
theorem exists_literal (hcover : CoverFrom source 0 ts) {x z : Lexer.Place} (hsteps : Lexer.Steps jsx x ts z)
    {p : Site} (hmem : p.1 ∈ ts) (hstring : p.1.kind = .string)
    (hplain : IsPlain ((ofSite id p).literal source.toList))
    (hnew : IsPlain (ofSite id p).specifier.toList →
      IsReplacement (ofSite id p).specifier (new (ofSite id p).specifier)) :
    ∃ q body, Literal new p.1 q body := by
  obtain ⟨q, body, hq, htext, hfits⟩ := hsteps.exists_body hmem hstring
  obtain ⟨k, hstands⟩ := hcover.exists_standsIn _ hmem
  have hbody : IsPlain body := by
    rwa [ofSite, id, literal_atToken hstands hq htext] at hplain
  rw [ofSite, id, specifier_atToken htext hbody, String.toList_ofList] at hnew
  obtain ⟨hplain', hfits'⟩ := hnew hbody
  refine ⟨q, body, hq, htext, hbody, hplain', hfits' q hq ?_⟩
  rw [String.toList_ofList]
  exact hfits hbody.not_mem_backslash

/-- The text of a token with a new specifier when it is at a site. -/
def newText (new : String → List Char) (sites : List Site) (t : Token) : List Char :=
  if t ∈ sites.map Prod.fst then
    t.text.toList.take 1 ++ (new (atToken t .static).specifier ++ t.text.toList.take 1)
  else t.text.toList

theorem Literal.newText_eq {t : Token} {q : Char} {body : List Char} (h : Literal new t q body)
    (ht : t ∈ sites.map Prod.fst) : newText new sites t = q :: (new (String.ofList body) ++ [q]) := by
  rw [newText, if_pos ht, specifier_atToken h.text h.plain, h.text]
  rfl

/-- A literal goes with the one that its new text makes. -/
theorem Literal.replaced {f : Token → Token} {p : Site} {q : Char} {body : List Char} (h : Literal new p.1 q body)
    (hf : (f p.1).text.toList = q :: (new (String.ofList body) ++ [q])) :
    Replaced new (ofSite id p) body (ofSite f p) (new (String.ofList body)) where
  specifier := specifier_atToken h.text h.plain _
  specifier' := specifier_atToken hf h.plain_new _
  kind := rfl
  new := by rw [ofSite, id, specifier_atToken h.text h.plain]
  plain := h.plain
  plain' := h.plain_new

/-- The old and the new texts of all tokens differ between the quotes of literals. -/
theorem respelledAs_newText (hstring : ∀ p ∈ sites, p.1.kind = .string)
    (hliteral : ∀ p ∈ sites, ∃ q body, Literal new p.1 q body) (t : Token) : t.RespelledAs (newText new sites t) := by
  by_cases hmem : t ∈ sites.map Prod.fst
  · obtain ⟨p, hp, rfl⟩ := List.mem_map.mp hmem
    obtain ⟨q, body, h⟩ := hliteral p hp
    rw [h.newText_eq hmem]
    exact .string (hstring p hp) h.quote h.text h.fits_new
  · rw [newText, if_neg hmem]
    exact .same

end Sites

/-- **A text with new specifiers** has the tokens of the old one but for the literals that are specifiers, and is woven
with it. -/
theorem exists_woven {jsx : Bool} (h : Lexer.run jsx source.toList = .ok ts)
    (hsorted : (ofTokens false ts).Pairwise fun i j => i.start < j.start)
    (hplain : ∀ i ∈ ofTokens false ts, IsPlain (i.literal source.toList)) {n : String → List Char}
    (hnew : ∀ i ∈ ofTokens false ts, IsPlain i.specifier.toList → IsReplacement i.specifier (n i.specifier)) :
    ∃ output ts', Lexer.run jsx output = .ok ts' ∧
      Woven (Replaced n) 0 source.toList 0 output (ofTokens false ts) (ofTokens false ts') := by
  have hcover : CoverFrom source 0 ts :=
    Lexer.coverFrom_of_from? (Lexer.at_interpreterLine source none) (Lexer.run_eq_ok_iff.mp h)
  have hnodup : ts.Nodup := nodup_of_starts hcover.starts
  obtain ⟨z, hsteps, hend⟩ := Lexer.run_eq_ok_iff_steps.mp h
  obtain ⟨sites, hsites, hreads⟩ := exists_sites false ts
  rw [ofTokens_eq_of_sites hreads] at hsorted hplain hnew ⊢
  have hliteral : ∀ p ∈ sites, ∃ q body, Literal n p.1 q body := fun p hp =>
    exists_literal hcover hsteps (hsites p hp).1 (hsites p hp).2 (hplain _ (List.mem_map_of_mem hp))
      (hnew _ (List.mem_map_of_mem hp))
  have hrespelled : ∀ t ∈ ts, t.RespelledAs (newText n sites t) := fun t _ =>
    respelledAs_newText (fun p hp => (hsites p hp).2) hliteral t
  obtain ⟨ts', z', hsteps', hrest, hrun', hall⟩ := Lexer.run_respell hsteps hend hrespelled
  -- the new tokens are images of the old ones, so the same literals are sites
  obtain ⟨f, rfl, hf, hid⟩ := exists_map_of_forall₂ hall hnodup
  have hkeeps : Token.KeepsWords f := .of_mem (fun t ht => ⟨(hf t ht).1.kind, (hf t ht).1.text_eq⟩) hid
  refine ⟨_, _, hrun', ?_⟩
  rw [hreads f hkeeps]
  have hwoven := woven_of_steps hsteps hsteps' hrest hnodup
    (sublist_sites hcover.starts (fun p hp => (hsites p hp).1) hsorted) (fun t ht => (hf t ht).1.gap)
    (fun t ht hmem => String.toList_injective (by rw [(hf t ht).2, newText, if_neg hmem]))
    (G := Replaced n) fun p hp => by
      obtain ⟨q, body, h⟩ := hliteral p hp
      have hsite := (hf p.1 (hsites p hp).1).2.trans (h.newText_eq (List.mem_map_of_mem hp))
      exact ⟨q, body, _, h.quote, h.text, hsite, h.replaced hsite⟩
  -- both texts have the interpreter line in front
  rw [Lexer.Place.first, Lexer.Place.first, Lexer.interpreterLine_sameUpToQuote (hsteps.sameUpToQuote hrespelled),
    offset_after] at hwoven
  have hfront := hwoven.prepend
  rwa [Lexer.interpreterLine_append] at hfront

end Import

/-! ## Reading with and without elements -/

namespace Lexer

/-- Whether a text is read with elements: it may have some, and can be read so. -/
def readsElements (s : List Char) : Bool := mayHaveElements s && (run true s).isOk

theorem tokens_eq_run (s : List Char) : tokens s = run (readsElements s) s := by
  unfold tokens readsElements
  cases hmark : mayHaveElements s
  · rfl
  · cases hrun : run true s with
    | ok ts => simp [hrun, Except.isOk, Except.toBool]
    | error e => simp [Except.isOk, Except.toBool]

end Lexer

namespace Import

variable {source : String} {imports : List Import}

/-- Plain specifiers are no part of the mark of a closing tag. -/
theorem Woven.mayHaveElements_eq {new : String → List Char} {done done' : Nat} {s s' : List Char} {is is' : List Import}
    (h : Woven (Replaced new) done s done' s' is is') : Lexer.mayHaveElements s' = Lexer.mayHaveElements s := by
  have hapart {a b : Char} (ha : ¬ IsQuote a) (hb : ¬ IsQuote b)
      (hplain : ∀ body, IsPlain body → a ∉ body ∨ b ∉ body) : hasPart [a, b] s' = hasPart [a, b] s := by
    rw [Bool.eq_iff_iff, ← not_iff_not, Bool.not_eq_true, Bool.not_eq_true, hasPart_pair, hasPart_pair]
    refine (h.apart_iff ha hb fun i body i' body' hgoes => ?_).symm
    exact ⟨apart_of_not_mem (hplain _ hgoes.plain), apart_of_not_mem (hplain _ hgoes.plain')⟩
  rw [Lexer.mayHaveElements, Lexer.mayHaveElements, hapart (by decide) (by decide), hapart (by decide) (by decide)]
  · exact fun body hbody => Or.inr fun hmem => hbody _ hmem (by simp)
  · exact fun body hbody => Or.inl fun hmem => hbody _ hmem (by simp)

/-- The specifier that comes in place of that of an import. -/
def renewed (new? : String → Option String) (i : Import) : String := (new? i.specifier).getD i.specifier

/-- What `new?` gives for the specifiers may come in their place. -/
def Renews (new? : String → Option String) (imports : List Import) : Prop :=
  ∀ i ∈ imports, IsPlain i.specifier.toList → IsReplacement i.specifier (i.renewed new?).toList

section Replace

variable {new? : String → Option String} {output : String} {ts : List Token} (hnew : Renews new? imports)
  (hsorted : imports.Pairwise fun i j => i.start < j.start) (hplain : ∀ i ∈ imports, IsPlain (i.literal source.toList))
  (houtput : replace source imports (fun i => new? i.specifier) = output)
include hnew hsorted hplain houtput

/-- A text in which specifiers are replaced is woven with the old one. -/
theorem woven_replace {jsx : Bool} (h : (Lexer.run jsx source.toList).map (ofTokens false) = .ok imports) :
    ∃ imports', (Lexer.run jsx output.toList).map (ofTokens false) = .ok imports' ∧
      Woven (Replaced fun specifier => ((new? specifier).getD specifier).toList) 0 source.toList 0 output.toList imports
        imports' := by
  cases hrun : Lexer.run jsx source.toList with
  | error e =>
    rw [hrun] at h
    cases h
  | ok ts =>
    rw [hrun] at h
    cases h
    obtain ⟨text, ts', hrun', hwoven⟩ :=
      exists_woven (n := fun specifier => ((new? specifier).getD specifier).toList) hrun hsorted hplain hnew
    have htext : replaceFrom (fun i => new? i.specifier) 0 source.toList (ofTokens false ts) = text := by
      refine hwoven.replaceFrom_eq fun i body i' body' hgoes => ?_
      have hbody' := hgoes.new
      cases hi : new? i.specifier with
      | none =>
        rw [hi, Option.getD_none, hgoes.specifier, String.toList_ofList] at hbody'
        exact .inr ⟨rfl, hbody'⟩
      | some specifier =>
        rw [hi, Option.getD_some] at hbody'
        exact .inl (by rw [hbody', String.ofList_toList])
    obtain rfl : text = output.toList := by
      rw [← houtput, replace, String.toList_ofList, htext]
    exact ⟨_, by rw [hrun']; rfl, hwoven⟩

variable (hscan : scan source = .ok imports)
include hscan

/-- **What is outside the specifiers** is left alone when they are replaced. -/
theorem weave_replace :
    source.toList = weave (outside 0 source.toList imports) (imports.map fun i => i.specifier.toList) ∧
      output.toList = weave (outside 0 source.toList imports) (imports.map fun i => (i.renewed new?).toList) := by
  rw [scan, tokenize, Lexer.tokens_eq_run] at hscan
  obtain ⟨imports', -, hwoven⟩ := woven_replace hnew hsorted hplain houtput hscan
  refine hwoven.weave_eq fun i body i' body' hgoes => ⟨?_, hgoes.new⟩
  rw [hgoes.specifier, String.toList_ofList]

/-- **The imports of a text in which specifiers are replaced** are those that it had before, with the new specifiers,
when it is not read with elements where it was read without them. -/
theorem scan_replace (hmode : Lexer.readsElements output.toList = true → Lexer.readsElements source.toList = true) :
    ∃ imports', scan output = .ok imports' ∧
      List.Forall₂ (fun i i' => i'.kind = i.kind ∧ i'.specifier = i.renewed new?) imports imports' ∧
      outside 0 output.toList imports' = outside 0 source.toList imports := by
  rw [scan, tokenize, Lexer.tokens_eq_run] at hscan
  obtain ⟨imports', hscan', hwoven⟩ := woven_replace hnew hsorted hplain houtput hscan
  -- the marks of closing tags stay, so a text that was read with elements still is
  have hsame : Lexer.readsElements output.toList = Lexer.readsElements source.toList := by
    refine Bool.eq_iff_iff.mpr ⟨hmode, fun hreads => ?_⟩
    rw [hreads] at hscan'
    obtain ⟨hmark, -⟩ := Bool.and_eq_true_iff.mp hreads
    rw [Lexer.readsElements, hwoven.mayHaveElements_eq, hmark]
    cases hrun : Lexer.run true output.toList with
    | ok ts => rfl
    | error e =>
      rw [hrun] at hscan'
      cases hscan'
  refine ⟨imports', ?_, ?_, hwoven.outside_eq⟩
  · rw [scan, tokenize, Lexer.tokens_eq_run, hsame]
    exact hscan'
  · refine hwoven.forall₂.imp fun i i' h => ?_
    obtain ⟨body, body', hgoes⟩ := h
    refine ⟨hgoes.kind, ?_⟩
    rw [hgoes.specifier', hgoes.new, String.ofList_toList]
    rfl

end Replace

end Import

end AppBundler
