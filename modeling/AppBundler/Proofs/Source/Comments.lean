import AppBundler.Proofs.Source.Elements
import AppBundler.Proofs.Source.Joining
/-!
# Comments behind tokens

A block comment that is put behind a token is read into the gap there, so the same words are read in the same way. But
whether a text is read with elements is told by all that is written in it, comments and all. A comment may have the
mark that was missing, and even the closing tag of an element that begins far in front of it. The words stay just when
no such element is found in the text.
-/

namespace AppBundler

open Lexeme Lexer

/-! ## Putting comments into texts -/

/-- A block comment between two spaces. -/
def Gap.ofComment (body : List Char) : List Char := ' ' :: '/' :: '*' :: (body ++ ['*', '/', ' '])

/-- A source with a block comment behind a token. -/
def withComment (source : String) (t : Token) (comment : String) : String :=
  String.ofList ((t.cut source).1 ++ Gap.ofComment comment.toList ++ (t.cut source).2)


/-- **A block comment ends** where it is closed, whatever comes behind it. -/
theorem Gap.goesBefore_ofComment {body : List Char} (hbody : ¬ ['*', '/'] <:+: body) :
    GoesBefore (ofComment body) (docOf body) := by
  intro s
  have hshape : ofComment body ++ s = ' ' :: '/' :: '*' :: (body ++ '*' :: '/' :: ' ' :: s) := by simp [ofComment]
  rw [hshape, scan_blank (by decide), scan_block hbody, scan_blank (by decide), withDoc_precede, precede_precede,
    precede_precede]
  simp [ofComment]

namespace Lexer

variable {jsx jsx' : Bool} {x y : Place} {t : Token} {ts ts' : List Token}

/-- A text is read behind some tokens at a place of its source. -/
theorem Steps.exists_at (h : Steps jsx x ts y) {source : String} {before line : List Char}
    (hx : x.At source before line) : ∃ before line, y.At source before line := by
  induction h generalizing before line with
  | refl => exact ⟨before, line, hx⟩
  | head hstep _ ih => exact ih (hstep.standsIn hx).2

/-- A source is read up to a token and from there on. -/
theorem exists_steps_cut {source : String} (h : run jsx source.toList = .ok ts) (ht : t ∈ ts) :
    ∃ above below w y z, ts = above ++ below ∧ Steps jsx (Place.first source.toList) above y ∧ Steps jsx y below z ∧
      (∃ g d, Gap.scan z.rest = .ok ⟨g, d, []⟩) ∧ (Place.first source.toList).rest = w ++ y.rest ∧ w ≠ [] ∧
      t.cut source = ((interpreterLine source.toList).text ++ w, y.rest) := by
  obtain ⟨z, hsteps, hend⟩ := run_eq_ok_iff_steps.mp h
  obtain ⟨above, below, rfl⟩ := List.append_of_mem ht
  rw [← List.singleton_append, ← List.append_assoc] at hsteps
  obtain ⟨y, habove, hbelow⟩ := hsteps.exists_append
  obtain ⟨x, hfirst, hlast⟩ := habove.exists_append
  obtain ⟨before, line, hx⟩ := hfirst.exists_at (at_interpreterLine source none)
  cases hlast with
  | head hstep hnil =>
  cases hnil
  obtain ⟨front, hcut, hsource, -⟩ := hstep.cut hx
  have hrest := habove.rest_eq
  refine ⟨above ++ [t], below, _, y, z, by simp, habove, hbelow, hend, hrest, by simp [hstep.text_ne_nil], ?_⟩
  -- what is in front is the interpreter line and what the tokens spell
  have happend := interpreterLine_append source.toList
  rw [show (interpreterLine source.toList).rest = _ from hrest, ← List.append_assoc] at happend
  rw [hcut, List.append_cancel_right (happend.trans hsource)]

/-- **A comment behind a token** leaves the words alone when the text is read in the same way. -/
theorem run_withComment {source comment : String} (h : run jsx source.toList = .ok ts) (ht : t ∈ ts)
    (hcomment : ¬ "*/".toList <:+: comment.toList) :
    ∃ ts', run jsx (withComment source t comment).toList = .ok ts' ∧ words ts' = words ts := by
  obtain ⟨above, below, w, ⟨l, p, behind⟩, z, rfl, habove, hbelow, hend, hrest, hne, hcut⟩ := exists_steps_cut h ht
  dsimp only at hrest hcut
  obtain ⟨line, hline⟩ : ∃ line, interpreterLine source.toList = ⟨line, w ++ behind⟩ := ⟨_, by rw [← hrest]; rfl⟩
  have hnew : (withComment source t comment).toList = line ++ (w ++ (Gap.ofComment comment.toList ++ behind)) := by
    simp [withComment, hcut, hline]
  have hsource := interpreterLine_append source.toList
  rw [hline] at hsource
  have hfirst : Place.first (withComment source t comment).toList =
      ⟨none, (Place.first source.toList).position, w ++ (Gap.ofComment comment.toList ++ behind)⟩ := by
    rw [Place.first, Place.first, hnew, hline]
    rw [← hsource] at hline
    rw [Gap.ofComment, List.cons_append, interpreterLine_before hline hne (by decide)]
  have habove' : Steps jsx ⟨none, (Place.first source.toList).position, w ++ (Gap.ofComment comment.toList ++ behind)⟩
      above ⟨l, p, Gap.ofComment comment.toList ++ behind⟩ := by
    rw [Place.first, hline] at habove ⊢
    exact habove.before endsLexeme_space (r := [])
  obtain ⟨below', z', hbelow', hwords, hend'⟩ := hbelow.behindGap (Gap.goesBefore_ofComment hcomment) rfl p hend
  refine ⟨above ++ below', run_eq_ok_iff_steps.mpr ⟨z', ?_, hend'⟩, ?_⟩
  · rw [hfirst]
    exact habove'.append hbelow'
  · rw [words_append, words_append, hwords]

/-- A comment makes no mark of a closing tag with what stands around it. -/
theorem mayHaveElements_ofComment (a body b : List Char) : mayHaveElements (a ++ Gap.ofComment body ++ b) =
    (mayHaveElements a || mayHaveElements body || mayHaveElements b) := by
  have hshape : a ++ Gap.ofComment body ++ b = a ++ ' ' :: (['/'] ++ '*' :: (body ++ '*' :: (['/'] ++ ' ' :: b))) := by
    simp [Gap.ofComment]
  have hslash : mayHaveElements ['/'] = false := rfl
  rw [hshape, mayHaveElements_between (by decide), mayHaveElements_between (by decide),
    mayHaveElements_between (by decide), mayHaveElements_between (by decide), hslash, Bool.false_or, Bool.false_or,
    Bool.or_assoc]

/-- The same words in the same text are the same tokens, whether they are read with elements or without. -/
theorem run_eq_of_words {s : List Char} (h : run jsx s = .ok ts) (h' : run jsx' s = .ok ts')
    (hwords : words ts' = words ts) : ts' = ts := by
  obtain ⟨z, hsteps, hend⟩ := run_eq_ok_iff_steps.mp h
  obtain ⟨z', hsteps', -⟩ := run_eq_ok_iff_steps.mp h'
  obtain ⟨haligned, -⟩ := hsteps.aligned hsteps' hwords (v := []) (List.append_nil _).symm nofun rfl
  rw [List.append_nil, List.append_nil] at haligned
  have hsame := run_eq_ok_iff_steps.mpr ⟨z, haligned, hend⟩
  rw [h'] at hsame
  exact Except.ok.inj hsame

end Lexer

/-! ## Imports and words -/

/-- What an import is, wherever it stands. -/
def Import.word (i : Import) : ImportKind × String := (i.kind, i.specifier)

/-- Imports are told from words. -/
theorem Import.ofTokens_words {ts us : List Token} (hts : ts.Nodup) (hwords : words us = words ts) :
    (ofTokens false us).map word = (ofTokens false ts).map word := by
  obtain ⟨f, rfl, hf, hid⟩ := exists_map_of_forall₂ (words_eq_iff.mp hwords) hts
  have hkeeps : Token.KeepsWords f := .of_mem (fun t ht => (Token.word_eq_iff.mp (hf t ht)).imp_right fun h _ => h) hid
  obtain ⟨sites, hsites, hreads⟩ := exists_sites false ts
  rw [hreads f hkeeps, ofTokens_eq_of_sites hreads, List.map_map, List.map_map]
  refine List.map_congr_left fun p hp => ?_
  obtain ⟨-, htext⟩ := Token.word_eq_iff.mp (hf p.1 (hsites p hp).1)
  simp [word, ofSite, atToken, htext]

/-! ## Texts with and without elements -/

/-- A text is read with elements and has some: without them it is read otherwise. -/
def FindsElements (source : String) : Prop :=
  readsElements source.toList = true ∧ run true source.toList ≠ run false source.toList

instance : DecidablePred FindsElements := fun source =>
  inferInstanceAs (Decidable (readsElements source.toList = true ∧ run true source.toList ≠ run false source.toList))

section Inserted

variable {source comment : String} {ts : List Token} {t : Token} (ht : t ∈ ts)
  (hcomment : ¬ "*/".toList <:+: comment.toList)
include ht hcomment

/-- A source that is read with elements keeps its words. If it has none, none are found behind a comment. -/
theorem tokens_withComment_of_elements (h : run true source.toList = .ok ts) (hreads : readsElements source.toList = true) :
    ∃ ts', tokens (withComment source t comment).toList = .ok ts' ∧ words ts' = words ts ∧
      (FindsElements (withComment source t comment) → FindsElements source) := by
  obtain ⟨ts', hrun, hwords⟩ := run_withComment h ht hcomment
  refine ⟨ts', ?_, hwords, fun hfinds => ⟨hreads, fun hsame => hfinds.2 ?_⟩⟩
  · cases hmay : mayHaveElements (withComment source t comment).toList with
    | true =>
      rw [tokens, hmay, hrun]
      rfl
    | false =>
      -- the comment may stand inside the only mark
      rw [tokens, hmay, if_neg (by decide)]
      exact run_plainly hrun hmay
  · rw [h] at hsame
    obtain ⟨us, hrun', hwords'⟩ := run_withComment hsame.symm ht hcomment
    rw [hrun, hrun', run_eq_of_words hrun' hrun (hwords.trans hwords'.symm)]

/-- A source that is read without elements keeps its words when none are found behind a comment. -/
theorem tokens_withComment_of_plain (h : run false source.toList = .ok ts) :
    ∃ ts', tokens (withComment source t comment).toList = .ok ts' ∧
      (words ts' = words ts ↔ ¬ FindsElements (withComment source t comment)) := by
  obtain ⟨us, hrun, hwords⟩ := run_withComment h ht hcomment
  rw [tokens_eq_run, FindsElements, hrun]
  cases hreads : readsElements (withComment source t comment).toList with
  | false => exact ⟨us, hrun, by simp [hwords]⟩
  | true =>
    obtain ⟨-, hok⟩ := Bool.and_eq_true_iff.mp hreads
    cases hrun' : run true (withComment source t comment).toList with
    | error e =>
      rw [hrun'] at hok
      cases hok
    | ok ts' =>
      refine ⟨ts', rfl, ?_⟩
      rw [← hwords]
      constructor
      · rintro hsame ⟨-, hne⟩
        exact hne (congrArg Except.ok (run_eq_of_words hrun hrun' hsame))
      · intro hnone
        have hsame : Except.ok ts' = Except.ok us := not_not.mp fun hne => hnone ⟨rfl, hne⟩
        rw [Except.ok.inj hsame]

/-- **A comment without marks of closing tags** leaves the words of a text without them alone. -/
theorem words_withComment_of_unmarked (h : tokenize source = .ok ts) (hsource : mayHaveElements source.toList = false)
    (hunmarked : mayHaveElements comment.toList = false) :
    ∃ ts', tokenize (withComment source t comment) = .ok ts' ∧ words ts' = words ts := by
  rw [tokenize, tokens, hsource, if_neg (by decide)] at h
  obtain ⟨ts', hrun, hwords⟩ := run_withComment h ht hcomment
  obtain ⟨above, below, w, y, z, -, -, -, -, hrest, -, hcut⟩ := exists_steps_cut h ht
  -- no mark stands on either side of the comment
  have hwhole : (interpreterLine source.toList).text ++ w ++ y.rest = source.toList := by
    rw [List.append_assoc, ← hrest]
    exact interpreterLine_append _
  rw [← hwhole, ← Bool.not_eq_true, mayHaveElements_eq_true_iff] at hsource
  obtain ⟨hfront, hbehind⟩ := not_hasMark_append hsource
  rw [← mayHaveElements_eq_true_iff, Bool.not_eq_true] at hfront hbehind
  refine ⟨ts', ?_, hwords⟩
  have hmay : mayHaveElements (withComment source t comment).toList = false := by
    rw [withComment, String.toList_ofList, hcut, mayHaveElements_ofComment, hfront, hunmarked, hbehind]
    rfl
  rw [tokenize, tokens, hmay, if_neg (by decide), hrun]

end Inserted

/-- A text with an import. -/
def importing : String := "import \"./a\";"

/-- Its tokens. -/
def importingTokens : List Token :=
  [⟨.ident, "import", "", ⟨0, 1, 1⟩, none⟩, ⟨.string, "\"./a\"", " ", ⟨7, 1, 8⟩, none⟩,
    ⟨.punct, ";", "", ⟨12, 1, 13⟩, none⟩]

/-- A generic arrow function, whose angle brackets are no tags, and an import. -/
def arrowAndImport : String := "f = <T>(x) => x;\nimport \"./a\";"

/-- Its last token. -/
def arrowAndImportEnd : Token := ⟨.punct, ";", "", ⟨29, 2, 13⟩, none⟩

end AppBundler
