import Mathlib.Data.List.Sort
import AppBundler.Source.Imports
/-!
# Where imports stand among tokens

Which string literals are specifiers is told from the kinds of tokens and from the texts of names and punctuators.
So the same literals are specifiers whatever they contain and wherever they stand.
-/

namespace AppBundler

/-- A change of tokens that leaves kinds alone, and all texts but those of string literals. -/
def Token.KeepsWords (f : Token → Token) : Prop := ∀ t, (f t).kind = t.kind ∧ (t.kind ≠ .string → (f t).text = t.text)

namespace Token.KeepsWords

variable {f : Token → Token}

/-- It is enough to ask for it among the tokens that are changed at all. -/
theorem of_mem {ts : List Token} (hf : ∀ t ∈ ts, (f t).kind = t.kind ∧ (t.kind ≠ .string → (f t).text = t.text))
    (hid : ∀ t ∉ ts, f t = t) : KeepsWords f := by
  intro t
  by_cases ht : t ∈ ts
  · exact hf t ht
  · rw [hid t ht]
    exact ⟨rfl, fun _ => rfl⟩

variable (hf : KeepsWords f)
include hf

theorem isPunct (t : Token) (text : String) : (f t).isPunct text = t.isPunct text := by
  by_cases hkind : t.kind = .string
  · simp [Token.isPunct, (hf t).1, hkind]
  · simp [Token.isPunct, (hf t).1, (hf t).2 hkind]

theorem isIdent (t : Token) (name : String) : (f t).isIdent name = t.isIdent name := by
  by_cases hkind : t.kind = .string
  · simp [Token.isIdent, (hf t).1, hkind]
  · simp [Token.isIdent, (hf t).1, (hf t).2 hkind]

end Token.KeepsWords

namespace Import

variable {f : Token → Token} {b : Bool} {ts : List Token} {t : Token}

/-- The import that a string literal is. -/
def atToken (t : Token) (kind : ImportKind) : Import :=
  ⟨String.ofList (Token.unescape (t.text.toList.drop 1).dropLast), t.start.offset + 1, t.endOffset - 1, kind⟩

theorem ofToken?_eq (h : t.kind = .string) (kind : ImportKind) : ofToken? t kind = some (atToken t kind) := by
  simp [ofToken?, Token.stringValue?, h, atToken]

/-- The literal behind a word `from` is the same. -/
theorem head?_filter_map (hf : Token.KeepsWords f) :
    (ts.map f).head?.filter (fun s => (f t).isIdent "from" && s.kind = .string) =
      (ts.head?.filter fun s => t.isIdent "from" && s.kind = .string).map f := by
  cases ts with
  | nil => rfl
  | cons u ts =>
    simp only [List.map_cons, List.head?_cons, Option.filter_some, hf.isIdent, (hf u).1]
    split <;> rfl

/-- The same literal is the source of a clause. -/
theorem clauseSource_map (hf : Token.KeepsWords f) : clauseSource b (ts.map f) = (clauseSource b ts).map f := by
  induction ts generalizing b with
  | nil => rfl
  | cons t ts ih =>
    rw [List.map_cons, clauseSource, clauseSource, hf.isPunct]
    split
    · exact ih
    · rw [head?_filter_map hf]
      cases ts.head?.filter fun s => t.isIdent "from" && s.kind = .string with
      | some source => rfl
      | none =>
        dsimp only [Option.map_none]
        rw [(hf t).1]
        cases hkind : t.kind with
        | punct =>
          rw [(hf t).2 (by simp [hkind])]
          dsimp only
          split
          · exact ih
          · split
            · exact ih
            · rfl
        | ident =>
          rw [(hf t).2 (by simp [hkind])]
          dsimp only
          split
          · rfl
          · exact ih
        | _ => rfl

/-- The source of a clause is a string literal of it. -/
theorem mem_of_clauseSource (h : clauseSource b ts = some t) : t ∈ ts ∧ t.kind = .string := by
  induction ts generalizing b with
  | nil => cases h
  | cons u ts ih =>
    have hrest {b : Bool} (hb : clauseSource b ts = some t) : t ∈ u :: ts ∧ t.kind = .string :=
      ⟨List.mem_cons_of_mem _ (ih hb).1, (ih hb).2⟩
    rw [clauseSource] at h
    split at h
    · exact hrest h
    · split at h
      · rename_i source hsource
        cases h
        obtain ⟨hhead, hstring⟩ := Option.filter_eq_some_iff.mp hsource
        obtain ⟨r, rfl⟩ := List.head?_eq_some_iff.mp hhead
        rw [Bool.and_eq_true, decide_eq_true_eq] at hstring
        exact ⟨by simp, hstring.2⟩
      · split at h
        · split at h
          · exact hrest h
          · split at h
            · exact hrest h
            · cases h
        · split at h
          · cases h
          · exact hrest h
        · cases h

/-! ## Sites -/

/-- A string literal that is a specifier, and how it is used. -/
abbrev Site := Token × ImportKind

/-- The import at a site after a change of tokens. -/
def ofSite (f : Token → Token) (site : Site) : Import := atToken (f site.1) site.2

/-- What imports are among some tokens, told from their sites. -/
def HasSite (ts : List Token) (read : List Token → Option Import) : Prop :=
  ∃ site : Option Site, (∀ p ∈ site, p.1 ∈ ts ∧ p.1.kind = .string) ∧
    ∀ f, Token.KeepsWords f → read (ts.map f) = site.map (ofSite f)

theorem HasSite.none {read : List Token → Option Import} (h : ∀ f, Token.KeepsWords f → read (ts.map f) = none) :
    HasSite ts read := ⟨Option.none, nofun, h⟩

/-- The source of a clause is a site. -/
theorem hasSite_clause (kind : ImportKind) :
    HasSite ts fun us => (clauseSource false us).bind fun source => ofToken? source kind := by
  cases hsource : clauseSource false ts with
  | none => exact .none fun f hf => by rw [clauseSource_map hf, hsource]; rfl
  | some source =>
    obtain ⟨hmem, hstring⟩ := mem_of_clauseSource hsource
    refine ⟨some (source, kind), fun p hp => Option.some.inj hp ▸ ⟨hmem, hstring⟩, fun f hf => ?_⟩
    dsimp only
    rw [clauseSource_map hf, hsource]
    exact ofToken?_eq ((hf source).1.trans hstring) kind

/-- A single literal is a site. -/
theorem hasSite_literal {read : List Token → Option Import} (kind : ImportKind) (hmem : t ∈ ts)
    (hstring : t.kind = .string) (h : ∀ f, Token.KeepsWords f → read (ts.map f) = ofToken? (f t) kind) :
    HasSite ts read := by
  refine ⟨some (t, kind), fun p hp => Option.some.inj hp ▸ ⟨hmem, hstring⟩, fun f hf => ?_⟩
  rw [h f hf]
  exact ofToken?_eq ((hf t).1.trans hstring) kind

/-- The import of a call, behind its parenthesis. -/
def calledSource : List Token → Option Import
  | source :: close :: _ =>
    if source.kind = .string && (close.isPunct ")" || close.isPunct ",") then ofToken? source .dynamic else none
  | _ => none

theorem afterImport_cons (t : Token) (ts : List Token) : afterImport (t :: ts) =
    if t.isPunct "(" then calledSource ts
    else if t.kind = .string then ofToken? t .static
    else (clauseSource false (t :: ts)).bind fun source => ofToken? source .static := by
  cases ts with
  | nil => rfl
  | cons u ts => cases ts <;> rfl

theorem hasSite_calledSource : HasSite ts calledSource := by
  match ts with
  | [] => exact .none fun _ _ => rfl
  | [_] => exact .none fun _ _ => rfl
  | source :: close :: ts =>
    have hread (f : Token → Token) (hf : Token.KeepsWords f) : calledSource ((source :: close :: ts).map f) =
        if source.kind = .string && (close.isPunct ")" || close.isPunct ",") then ofToken? (f source) .dynamic
        else none := by
      rw [List.map_cons, List.map_cons, calledSource, (hf source).1, hf.isPunct, hf.isPunct]
    by_cases hcall : (source.kind = .string && (close.isPunct ")" || close.isPunct ",")) = true
    · have hstring : source.kind = .string := of_decide_eq_true (Bool.and_eq_true _ _ ▸ hcall).1
      exact hasSite_literal .dynamic (by simp) hstring fun f hf => by rw [hread f hf, if_pos hcall]
    · exact .none fun f hf => by rw [hread f hf, if_neg hcall]

/-- What a word `import` begins has one site at most. -/
theorem hasSite_afterImport : HasSite ts afterImport := by
  cases ts with
  | nil => exact .none fun _ _ => rfl
  | cons t ts =>
    by_cases hopen : t.isPunct "(" = true
    · obtain ⟨site, hmem, hread⟩ : HasSite ts calledSource := hasSite_calledSource
      refine ⟨site, fun p hp => ⟨List.mem_cons_of_mem _ (hmem p hp).1, (hmem p hp).2⟩, fun f hf => ?_⟩
      rw [List.map_cons, afterImport_cons, hf.isPunct, if_pos hopen]
      exact hread f hf
    · by_cases hstring : t.kind = .string
      · refine hasSite_literal .static (List.mem_cons_self) hstring fun f hf => ?_
        rw [List.map_cons, afterImport_cons, hf.isPunct, if_neg hopen, (hf t).1, if_pos hstring]
      · obtain ⟨site, hmem, hread⟩ : HasSite (t :: ts) _ := hasSite_clause .static
        refine ⟨site, hmem, fun f hf => ?_⟩
        rw [List.map_cons, afterImport_cons, hf.isPunct, if_neg hopen, (hf t).1, if_neg hstring]
        exact hread f hf

/-- What a word `export` begins has one site at most. -/
theorem hasSite_afterExport : HasSite ts afterExport := by
  cases ts with
  | nil => exact .none fun _ _ => rfl
  | cons t ts =>
    by_cases hbegins : (t.isPunct "*" || t.isPunct "\x7b" || t.isIdent "type") = true
    · obtain ⟨site, hmem, hread⟩ : HasSite (t :: ts) _ := hasSite_clause .reExport
      refine ⟨site, hmem, fun f hf => ?_⟩
      rw [List.map_cons, afterExport, hf.isPunct, hf.isPunct, hf.isIdent, if_pos hbegins]
      exact hread f hf
    · refine .none fun f hf => ?_
      rw [List.map_cons, afterExport, hf.isPunct, hf.isPunct, hf.isIdent, if_neg hbegins]

/-- **The sites of imports** among tokens stay what they are whatever the literals contain. -/
theorem exists_sites (afterPoint : Bool) (ts : List Token) :
    ∃ sites : List Site, (∀ p ∈ sites, p.1 ∈ ts ∧ p.1.kind = .string) ∧
      ∀ f, Token.KeepsWords f → ofTokens afterPoint (ts.map f) = sites.map (ofSite f) := by
  induction ts generalizing afterPoint with
  | nil => exact ⟨[], nofun, fun _ _ => rfl⟩
  | cons t ts ih =>
    have hhere : HasSite ts fun us =>
        if afterPoint then none
        else if t.isIdent "import" then afterImport us
        else if t.isIdent "export" then afterExport us
        else none := by
      by_cases hpoint : afterPoint = true
      · exact .none fun f hf => by simp [hpoint]
      by_cases himport : t.isIdent "import" = true
      · simpa [hpoint, himport] using hasSite_afterImport
      by_cases hexport : t.isIdent "export" = true
      · simpa [hpoint, himport, hexport] using hasSite_afterExport
      · exact .none fun f hf => by simp [hpoint, himport, hexport]
    obtain ⟨site, hsite, hread⟩ := hhere
    obtain ⟨sites, hsites, hreads⟩ := ih (t.isPunct "." || t.isPunct "?.")
    refine ⟨site.toList ++ sites, fun p hp => ?_, fun f hf => ?_⟩
    · rcases List.mem_append.mp hp with hp | hp
      · obtain ⟨hmem, hstring⟩ := hsite p (Option.mem_toList.mp hp)
        exact ⟨List.mem_cons_of_mem _ hmem, hstring⟩
      · obtain ⟨hmem, hstring⟩ := hsites p hp
        exact ⟨List.mem_cons_of_mem _ hmem, hstring⟩
    · have hhere := hread f hf
      dsimp only at hhere
      rw [List.map_cons, ofTokens, hf.isPunct, hf.isPunct, hf.isIdent, hf.isIdent, hreads f hf, hhere, List.map_append]
      cases site <;> rfl

/-- The imports among tokens that are not changed are those at their sites. -/
theorem ofTokens_eq_of_sites {sites : List Site}
    (h : ∀ f, Token.KeepsWords f → ofTokens b (ts.map f) = sites.map (ofSite f)) : ofTokens b ts = sites.map (ofSite id) := by
  have hid := h id fun t => ⟨rfl, fun _ => rfl⟩
  rwa [List.map_id] at hid

end Import

end AppBundler
