import AppBundler.Source.Tree.Items
import AppBundler.Proofs.Source.Tree.Operands
import AppBundler.Proofs.Source.Tree.Spelling
/-!
# Written types are read back

Each form of a type is read from its words, and a type from those of its parts. So the text of an alias for a type is
parsed as an alias for the type.
-/

namespace AppBundler

open Lexeme

namespace TypeExpr

variable {t : TypeExpr} {ts : List TypeExpr} {c : Cursor} {v : Word} {ws vs : List Word} {text : String}
  {n m : Nat} {i : Inner} {spaced : Bool}

/-! ## Names -/

/-- The parts of a name behind its first one are read up to a word that is no point. -/
theorem nameParts_spells {more : List (List Char)} (hv : v.kind = .punct → v.text ≠ ".")
    (h : c.Spells ((more.flatMap fun part => [mark false ".", name false part]) ++ v :: vs)) :
    ∃ d, Cursor.nameParts c.before c.ahead = (String.ofList (more.flatMap ('.' :: ·)), d) ∧ d.Spells (v :: vs) := by
  obtain ⟨p, h⟩ := h
  rw [h]
  generalize c.before = b
  clear h
  induction more generalizing b p with
  | nil =>
    refine ⟨⟨b, Word.tokensAt p (v :: vs)⟩, ?_, p, rfl⟩
    have hpoint : (v.token p).isPunct "." = false := by
      rw [Bool.eq_false_iff]
      intro hpoint
      obtain ⟨hkind, htext⟩ := Bool.and_eq_true_iff.mp hpoint
      exact hv (of_decide_eq_true hkind) (of_decide_eq_true htext)
    cases vs with
    | nil =>
      rw [List.flatMap_nil, List.nil_append, Word.tokensAt_cons, Word.tokensAt, Cursor.nameParts]
      · rfl
      · simp
    | cons w vs =>
      rw [List.flatMap_nil, List.nil_append, Word.tokensAt_cons, Word.tokensAt_cons, Cursor.nameParts, hpoint]
      rfl
  | cons part more ih =>
    obtain ⟨d, hmore, hd⟩ := ih ((p.after (mark false ".").chars).after (name false part).chars)
      (some ((name false part).token (p.after (mark false ".").chars)))
    refine ⟨d, ?_, hd⟩
    have hpart : (((mark false ".").token p).isPunct "." &&
        decide (((name false part).token (p.after (mark false ".").chars)).kind = .ident)) = true := by
      rfl
    rw [List.flatMap_cons, List.append_assoc, List.cons_append, List.singleton_append, Word.tokensAt_cons,
      Word.tokensAt_cons, Cursor.nameParts, if_pos hpart, hmore, List.flatMap_cons, List.cons_append, String.ofList_cons,
      String.ofList_append]
    rfl

/-- The parts of a name make up the name. -/
theorem parts_eq (text : String) :
    ∃ first more, parts text = first :: more ∧ text = String.ofList first ++ String.ofList (more.flatMap ('.' :: ·)) := by
  obtain ⟨first, more, hparts⟩ := List.exists_cons_of_ne_nil (List.splitOn_ne_nil '.' text.toList)
  have hjoin : ['.'].intercalate (text.toList.splitOn '.') = text.toList := List.intercalate_splitOn '.'
  have hmore (first : List Char) (more : List (List Char)) :
      ['.'].intercalate (first :: more) = first ++ more.flatMap ('.' :: ·) := by
    induction more generalizing first with
    | nil => simp
    | cons part more ih => rw [List.intercalate_cons_cons, ih, List.flatMap_cons]; simp
  rw [hparts, hmore] at hjoin
  refine ⟨first, more, hparts, ?_⟩
  rw [← String.ofList_append, hjoin, String.ofList_toList]

theorem qualifiedName_spells (hv : v.kind = .punct → v.text ≠ ".")
    (h : c.Spells (partWords spaced (parts text) ++ v :: vs)) :
    ∃ d, c.qualifiedName = .ok (text, d) ∧ d.Spells (v :: vs) := by
  obtain ⟨first, more, hparts, htext⟩ := parts_eq text
  rw [hparts, partWords, List.cons_append] at h
  obtain ⟨p, hpeek⟩ := h.peek?
  obtain ⟨d, hmore, hd⟩ := nameParts_spells hv h.next
  refine ⟨d, ?_, hd⟩
  have hfirst : c.identifier = .ok (String.ofList first, c.next) := by
    rw [Cursor.identifier, hpeek]
    rfl
  rw [Cursor.qualifiedName, hfirst]
  change Except.ok (String.ofList first ++ (Cursor.nameParts c.next.before c.next.ahead).1,
    (Cursor.nameParts c.next.before c.next.ahead).2) = _
  rw [hmore, ← htext]

/-! ## Types of each form -/

theorem parsePrimary_ident (h : c.Spells (⟨spaced, .ident, text⟩ :: vs)) : parsePrimary i c = parseNamed i text c := by
  obtain ⟨p, hpeek⟩ := h.peek?
  rw [parsePrimary, hpeek]
  rfl

theorem parsePrimary_mark (h : c.Spells (mark spaced text :: vs)) : parsePrimary i c = parsePunct i text c := by
  obtain ⟨p, hpeek⟩ := h.peek?
  rw [parsePrimary, hpeek]
  rfl

/-- A word without a form of its own is a keyword or begins a reference. -/
theorem parseNamed_of_not_mem (h : text ∉ leading) :
    parseNamed i text c = if keywords.contains text then .ok (.keyword text, c.next) else parseReference i c := by
  simp only [leading, List.mem_cons, List.not_mem_nil, or_false, not_or] at h
  obtain ⟨hkeyof, htypeof, hreadonly, hunique, hinfer, habstract, hnew, hasserts, htrue, hfalse⟩ := h
  simp [parseNamed, hkeyof, htypeof, hreadonly, hunique, hinfer, habstract, hnew, hasserts, htrue, hfalse]

theorem reads_keyword (h : text ∈ keywords) : Reads 3 parsePrimary [⟨spaced, .ident, text⟩] (.keyword text) := by
  intro n v vs hv hfits c hc
  have hplain : ∀ text ∈ keywords, text ∉ leading := by decide
  refine ⟨c.next, ?_, hc.next⟩
  rw [parsePrimary_ident hc, parseNamed_of_not_mem (hplain text h), if_pos (List.contains_iff_mem.mpr h)]

theorem stringValue?_quoted (value : String) (p : Position) :
    ((⟨spaced, .string, String.ofList (quoted value.toList)⟩ : Word).token p).stringValue? = some value := by
  have hinner : ((quoted value.toList).drop 1).dropLast = value.toList.flatMap escapeChar := by
    rw [quoted, List.drop_one, List.tail_cons, List.dropLast_concat]
  simp only [Token.stringValue?, Word.token, String.toList_ofList, hinner, unescape_escaped, String.ofList_toList, if_true]

theorem reads_string (value : String) :
    Reads 3 parsePrimary [⟨spaced, .string, String.ofList (quoted value.toList)⟩] (.literal (.string value)) := by
  intro n v vs hv hfits c hc
  obtain ⟨p, hpeek⟩ := hc.peek?
  refine ⟨c.next, ?_, hc.next⟩
  have hkind : ((⟨spaced, .string, String.ofList (quoted value.toList)⟩ : Word).token p).kind = .string := rfl
  rw [parsePrimary, hpeek]
  simp only [hkind, stringValue?_quoted, Option.getD_some]

theorem reads_number (text : String) : Reads 3 parsePrimary [⟨spaced, .number, text⟩] (.literal (.number text)) := by
  intro n v vs hv hfits c hc
  obtain ⟨p, hpeek⟩ := hc.peek?
  refine ⟨c.next, ?_, hc.next⟩
  rw [parsePrimary, hpeek]
  rfl

theorem reads_negative (text : String) :
    Reads 3 parsePrimary [mark spaced "-", ⟨false, .number, text⟩] (.literal (.number ("-" ++ text))) := by
  intro n v vs hv hfits c hc
  obtain ⟨p, hpeek⟩ := hc.next.peek?
  have hnumber : c.peekAt? 1 = some ((⟨false, .number, text⟩ : Word).token p) := by
    obtain ⟨q, hq⟩ := hc
    rw [Cursor.peekAt?, hq]
    rw [Cursor.next, Cursor.peek?, hq] at hpeek
    exact hpeek
  refine ⟨c.next.next, ?_, hc.next.next⟩
  rw [parsePrimary_mark hc, parsePunct, hnumber]
  rfl

theorem reads_bool (value : Bool) :
    Reads 3 parsePrimary [⟨spaced, .ident, if value then "true" else "false"⟩] (.literal (.bool value)) := by
  intro n v vs hv hfits c hc
  refine ⟨c.next, ?_, hc.next⟩
  rw [parsePrimary_ident hc]
  cases value with
  | true => simp [parseNamed]
  | false => simp [parseNamed]

theorem reads_keyofTypeof (text : String) :
    Reads 3 parsePrimary (⟨spaced, .ident, "keyof"⟩ :: ⟨true, .ident, "typeof"⟩ :: partWords true (parts text))
      (.keyofTypeof text) := by
  intro n v vs hv hfits c hc
  obtain ⟨d, hname, hd⟩ := qualifiedName_spells (hv.ne (by decide)) hc.next.next
  refine ⟨d, ?_, hd⟩
  have htypeof : c.next.eatIdent? "typeof" = some c.next.next := by
    rw [Cursor.eatIdent?, hc.next.nextIsIdent]
    rfl
  rw [parsePrimary_ident hc, parseNamed, if_pos rfl, htypeof]
  simp only [hname, bind, Except.bind]

/-! ### References -/

theorem StartsOpen.nextIs (h : StartsOpen ws) (hc : c.Spells (ws ++ vs)) (htext : text ∉ ["(", "\x7b", "-"]) :
    c.nextIs text = false := by
  obtain ⟨w, more, rfl, hopens⟩ := h
  rw [hc.nextIs, Bool.eq_false_iff]
  intro hw
  obtain ⟨hkind, rfl⟩ : w.kind = .punct ∧ w.text = text := by simpa using hw
  exact htext (hopens hkind)

/-- Type arguments are read one by one. -/
theorem parseArgs_spells (hopen : StartsOpen ws) (h : ReadsAt 0 ws t)
    (hts : ∀ t ∈ ts, Begins t.bare ∧ ReadsAt 0 (enclosed 0 t t.bare true) t)
    (hfits : Fits n (ws ++ (followers 0 (mark false ",") ts ++ mark false ">" :: vs)))
    (hc : c.Spells (ws ++ (followers 0 (mark false ",") ts ++ mark false ">" :: vs))) (hm : ts.length < m) :
    ∃ d, parseArgs (.ofDepth (n + 1)) m c = .ok (t :: ts, d) ∧ d.Spells (mark false ">" :: vs) := by
  obtain ⟨m, rfl⟩ : ∃ k, m = k + 1 := ⟨m - 1, by omega⟩
  induction ts generalizing ws t c m with
  | nil =>
    have hclose : c.nextIs ">" = false := hopen.nextIs hc (by decide)
    rw [followers, List.nil_append] at hfits hc
    obtain ⟨d, htype, hd⟩ := h ⟨rfl, by decide⟩ hfits hc
    have htype : (Inner.ofDepth (n + 1)).type c = .ok (t, d) := htype
    have hcomma : d.eat? "," = none := hd.eat?_eq_none fun _ => by decide
    refine ⟨d, ?_, hd⟩
    rw [parseArgs, hclose]
    simp only [Bool.false_eq_true, if_false, htype, bind, Except.bind, hcomma]
  | cons t' ts ih =>
    have hclose : c.nextIs ">" = false := hopen.nextIs hc (by decide)
    obtain ⟨hbegins, hread⟩ := hts t' List.mem_cons_self
    rw [followers_cons_append] at hfits hc
    obtain ⟨c₁, htype, hc₁⟩ := h ⟨rfl, by decide⟩ hfits hc
    have htype : (Inner.ofDepth (n + 1)).type c = .ok (t, c₁) := htype
    rw [List.length_cons] at hm
    obtain ⟨m, rfl⟩ : ∃ k, m = k + 1 := ⟨m - 1, by omega⟩
    obtain ⟨d, hmore, hd⟩ := ih ((hbegins.enclosed 0 t').startsOpen true) hread
      (fun t ht => hts t (List.mem_cons_of_mem _ ht)) (Fits.drop [_] (Fits.drop ws hfits)) hc₁.next m (by omega)
    refine ⟨d, ?_, hd⟩
    rw [parseArgs, hclose]
    simp only [Bool.false_eq_true, if_false, htype, bind, Except.bind, hc₁.eat?, hmore]

/-- A name that is no reserved word is read as a reference, with the arguments behind it if there are any. -/
theorem parsePrimary_reference (hname : ∀ part ∈ parts text, String.ofList part ∉ reserved)
    (hv : v.kind = .punct) (hdot : v.text ≠ ".") (hc : c.Spells (partWords spaced (parts text) ++ v :: vs)) :
    ∃ d : Cursor, d.Spells (v :: vs) ∧
      (d.eat? "<" = none → parsePrimary i c = .ok (.reference text [], d)) ∧
      ∀ {c₁ args c₂ c₃}, d.eat? "<" = some c₁ → parseArgs i i.rounds c₁ = .ok (args, c₂) → c₂.expect ">" = .ok c₃ →
        parsePrimary i c = .ok (.reference text args, c₃) := by
  obtain ⟨d, hqualified, hd⟩ := qualifiedName_spells (fun _ => hdot) hc
  refine ⟨d, hd, ?_⟩
  have hthis : text ≠ "this" := by
    rintro rfl
    exact hname "this".toList (by decide) (by decide)
  have his : d.nextIsIdent "is" = false := by
    rw [hd.nextIsIdent, hv]
    rfl
  obtain ⟨first, more, hparts, -⟩ := parts_eq text
  rw [hparts] at hname hc
  have hfirst := hname first List.mem_cons_self
  have hleading : String.ofList first ∉ leading := fun hmem => hfirst (List.mem_append_left _ hmem)
  have hkeyword : keywords.contains (String.ofList first) = false := by
    rw [Bool.eq_false_iff]
    exact fun hmem => hfirst (List.mem_append_right _ (List.mem_append_left _ (List.contains_iff_mem.mp hmem)))
  rw [parsePrimary_ident hc, parseNamed_of_not_mem hleading, hkeyword, parseReference, hqualified]
  simp only [bind, Except.bind, his, hthis, Bool.false_and, Bool.false_eq_true, if_false]
  refine ⟨fun hnone => ?_, fun hangle hargs hclose => ?_⟩
  · simp only [hnone]
  · simp only [hangle, hargs, hclose]

theorem reads_name (hname : ∀ part ∈ parts text, String.ofList part ∉ reserved) :
    Reads 3 parsePrimary (partWords spaced (parts text)) (.reference text []) := by
  intro n v vs hv hfits c hc
  obtain ⟨d, hd, hbare, -⟩ := parsePrimary_reference hname hv.1 (hv.ne (by decide) hv.1) hc
  exact ⟨d, hbare (hd.eat?_eq_none (hv.ne (by decide))), hd⟩

theorem reads_reference (hname : ∀ part ∈ parts text, String.ofList part ∉ reserved)
    (h : ∀ t' ∈ t :: ts, Begins t'.bare ∧ ∀ spaced, ReadsAt 0 (enclosed 0 t' t'.bare spaced) t') :
    Reads 3 parsePrimary
      (partWords spaced (parts text) ++
        mark false "<" :: (enclosed 0 t t.bare false ++ (followers 0 (mark false ",") ts ++ [mark false ">"])))
      (.reference text (t :: ts)) := by
  intro n v vs hv hfits c hc
  simp only [List.append_assoc, List.cons_append, List.nil_append] at hfits hc
  have hfits := Fits.drop (partWords spaced (parts text)) hfits
  obtain ⟨n, rfl⟩ := hfits.exists_succ
  obtain ⟨c₁, hc₁, -, hwith⟩ := parsePrimary_reference (i := .ofDepth (n + 1)) hname rfl (by decide) hc
  obtain ⟨hbegins, hread⟩ := h t List.mem_cons_self
  have hfits := hfits.tail
  obtain ⟨d, hargs, hd⟩ := parseArgs_spells ((hbegins.enclosed 0 t).startsOpen false) (hread false)
    (fun t ht => ⟨(h t (List.mem_cons_of_mem _ ht)).1, (h t (List.mem_cons_of_mem _ ht)).2 true⟩) hfits hc₁.next
    (Nat.lt_succ_of_lt hfits.operands_lt)
  rw [rounds_ofDepth] at hwith
  exact ⟨d.next, hwith hc₁.eat? hargs hd.expect, hd.next⟩

/-! ### Arrays -/

/-- A bracket behind a type is one more suffix of what is read there. -/
theorem ReadsSuffixed.array (h : ReadsSuffixed ws t) :
    ReadsSuffixed (ws ++ [mark false "[", mark false "]"]) (.array t) := by
  intro n v vs hv hfits c hc
  simp only [List.append_assoc, List.cons_append, List.nil_append] at hfits hc
  obtain ⟨u, c', d, k, hprimary, hk, hd, hsuffixes⟩ := h ⟨rfl, by decide⟩ hfits hc
  refine ⟨u, c', d.next.next, k + 1, hprimary, ?_, hd.next.next, fun m => ?_⟩
  · rw [List.length_append]
    exact Nat.add_le_add hk (by decide)
  · have hopen : d.nextIs "[" = true := hd.nextIs "["
    have hclose : d.nthIs 1 "]" = true := hd.nthIs 1 "]"
    rw [show m + (k + 1) = m + 1 + k by omega, hsuffixes, parseSuffixes, hopen, hd.newlineNext, hclose]
    rfl

/-! ### Object types -/

/-- A question mark tells that a member is optional. -/
theorem optional_spells {optional : Bool} {type : Option TypeExpr}
    (hc : c.Spells ((if optional then [mark false "?"] else []) ++ (annotationWords type ++ mark false ";" :: vs))) :
    c.nextIs "?" = optional ∧ (c.skip "?").Spells (annotationWords type ++ mark false ";" :: vs) := by
  cases optional with
  | true =>
    refine ⟨hc.nextIs "?", ?_⟩
    rw [Cursor.skip, hc.eat?]
    exact hc.next
  | false =>
    cases type with
    | none => exact ⟨hc.nextIs "?", by rw [hc.skip_eq_self fun _ => by decide]; exact hc⟩
    | some t => exact ⟨hc.nextIs "?", by rw [hc.skip_eq_self fun _ => by decide]; exact hc⟩

/-- The type of a member is read up to the semicolon, or there is none. -/
theorem memberType_spells {type : Option TypeExpr}
    (htype : ∀ t, type = some t → ReadsAt 0 (t.bare true) t)
    (hfits : Fits (n + 1) (annotationWords type ++ mark false ";" :: vs))
    (hc : c.Spells (annotationWords type ++ mark false ";" :: vs)) :
    ∃ d, memberType (.ofDepth (n + 1)) c = .ok (type, false, d) ∧ d.Spells (mark false ";" :: vs) := by
  cases type with
  | none =>
    have hcolon : c.eat? ":" = none := hc.eat?_eq_none fun _ => by decide
    have hparen : c.nextIs "(" = false := hc.nextIs "("
    have hangle : c.nextIs "<" = false := hc.nextIs "<"
    refine ⟨c, ?_, hc⟩
    simp only [memberType, hparen, hangle, Inner.annotation?, hcolon, bind, Except.bind, Bool.or_self,
      Bool.false_eq_true, if_false]
  | some t =>
    rw [annotationWords, List.cons_append] at hfits hc
    have hparen : c.nextIs "(" = false := hc.nextIs "("
    have hangle : c.nextIs "<" = false := hc.nextIs "<"
    obtain ⟨d, hread, hd⟩ := htype t rfl ⟨rfl, by decide⟩ hfits.tail hc.next
    have hread : (Inner.ofDepth (n + 1)).type c.next = .ok (t, d) := hread
    refine ⟨d, ?_, hd⟩
    simp only [memberType, hparen, hangle, Inner.annotation?, hc.eat?, hread, Except.map, bind, Except.bind,
      Bool.or_self, Bool.false_eq_true, if_false]

/-- A quoted key begins a member, and the next member is read behind its semicolon. -/
theorem parseMembers_key {value : String} {type : Option TypeExpr} {more : List Member} {d e : Cursor}
    (hc : c.Spells (⟨spaced, .string, String.ofList (quoted value.toList)⟩ :: ws))
    (htype : memberType i (c.next.skip "?") = .ok (type, false, d)) (hd : d.Spells (mark false ";" :: vs))
    (hmore : parseMembers i m d.next = .ok (more, e)) :
    parseMembers i (m + 1) c = .ok (⟨value, c.next.nextIs "?", type, none, false⟩ :: more, e) := by
  obtain ⟨p, hpeek⟩ := hc.peek?
  have hpunct (text : String) : c.nextIs text = false := hc.nextIs text
  have hident (text : String) : c.nextIsIdent text = false := hc.nextIsIdent text
  have hend : c.atEnd = false := by
    obtain ⟨q, hq⟩ := hc
    rw [Cursor.atEnd, hq]
    rfl
  have hreadonly : skipReadonly c = c := by simp only [skipReadonly, hident, Bool.false_and, Bool.false_eq_true, if_false]
  have hsignature : isSignature c = false := by simp only [isSignature, hpunct, hident, Bool.false_and, Bool.or_self]
  have hkey : memberKey c = .ok (value, c.next) := by
    have hkind : ((⟨spaced, .string, String.ofList (quoted value.toList)⟩ : Word).token p).kind = .string := rfl
    simp only [memberKey, hpeek, hkind, stringValue?_quoted, Option.getD_some]
  have hdoc : c.peek?.bind (·.doc) = none := by rw [hpeek]; rfl
  have hseparated : d.nextIs ";" = true := hd.nextIs ";"
  simp only [parseMembers, hpunct, hend, hreadonly, hsignature, hkey, hdoc, htype, hseparated, hmore, bind, Except.bind,
    Bool.false_eq_true, Bool.or_self, Bool.true_or, Bool.not_true, Bool.false_and, if_false, if_true]

/-- The members of an object type are read one by one, up to the brace. -/
theorem parseMembers_spells {members : List Member} (hdoc : ∀ x ∈ members, x.doc = none)
    (hmethod : ∀ x ∈ members, x.method = false) (htype : ∀ x ∈ members, ∀ t, x.type = some t → ReadsAt 0 (t.bare true) t)
    (hfits : Fits (n + 1) (membersWords members ++ mark true "\x7d" :: vs))
    (hc : c.Spells (membersWords members ++ mark true "\x7d" :: vs)) (hm : members.length < m) :
    ∃ d, parseMembers (.ofDepth (n + 1)) m c = .ok (members, d) ∧ d.Spells (mark true "\x7d" :: vs) := by
  obtain ⟨m, rfl⟩ : ∃ k, m = k + 1 := ⟨m - 1, by omega⟩
  induction members generalizing c m with
  | nil =>
    refine ⟨c, ?_, hc⟩
    rw [parseMembers, if_pos]
    exact hc.nextIs "\x7d"
  | cons x xs ih =>
    obtain ⟨key, optional, type, doc, method⟩ := x
    obtain rfl : doc = none := hdoc _ List.mem_cons_self
    obtain rfl : method = false := hmethod _ List.mem_cons_self
    rw [List.length_cons] at hm
    obtain ⟨m, rfl⟩ : ∃ k, m = k + 1 := ⟨m - 1, by omega⟩
    simp only [membersWords, memberWords, List.append_assoc, List.cons_append, List.nil_append] at hfits hc
    obtain ⟨hoptional, hskip⟩ := optional_spells hc.next
    have hrest : Fits (n + 1) (annotationWords type ++ mark false ";" :: (membersWords xs ++ mark true "\x7d" :: vs)) :=
      Fits.drop (_ :: if optional then [mark false "?"] else []) hfits
    obtain ⟨c₁, hmember, hc₁⟩ := memberType_spells (htype _ List.mem_cons_self) hrest hskip
    obtain ⟨d, hmore, hd⟩ := ih (fun x hx => hdoc x (List.mem_cons_of_mem _ hx))
      (fun x hx => hmethod x (List.mem_cons_of_mem _ hx)) (fun x hx => htype x (List.mem_cons_of_mem _ hx))
      (Fits.drop [_] (Fits.drop (annotationWords type) hrest)) hc₁.next m (by omega)
    refine ⟨d, ?_, hd⟩
    rw [parseMembers_key hc hmember hc₁ hmore, hoptional]

theorem length_le_membersWords (members : List Member) : members.length ≤ (membersWords members).length := by
  induction members with
  | nil => exact Nat.zero_le _
  | cons x xs ih =>
    obtain ⟨key, optional, type, doc, method⟩ := x
    simp only [membersWords, memberWords, List.length_append, List.length_cons]
    omega

/-- An object type whose first member has a quoted key is no mapped type. -/
theorem isMapped_eq_false {members : List Member}
    (hc : c.Spells (mark spaced "\x7b" :: (membersWords members ++ mark true "\x7d" :: vs))) : isMapped c = false := by
  obtain ⟨w, more, hw, hkind⟩ : ∃ w more, membersWords members ++ mark true "\x7d" :: vs = w :: more ∧
      (w.kind = .string ∨ w = mark true "\x7d") := by
    cases members with
    | nil => exact ⟨_, _, rfl, .inr rfl⟩
    | cons x xs =>
      obtain ⟨key, optional, type, doc, method⟩ := x
      exact ⟨_, _, rfl, .inl rfl⟩
  rw [hw] at hc
  have hsecond (text : String) (htext : text ≠ "\x7d") : c.nthIs 1 text = false := by
    rw [hc.nthIs]
    rcases hkind with hkind | rfl
    · simp [hkind]
    · simpa [mark] using htext.symm
  have hident : c.nthIsIdent 1 "readonly" = false := by
    rw [hc.nthIsIdent]
    rcases hkind with hkind | rfl
    · simp [hkind]
    · simp [mark]
  simp only [isMapped, hident, hsecond "+" (by decide), hsecond "-" (by decide), hsecond "[" (by decide), Bool.or_self,
    Bool.false_and]

theorem reads_object {members : List Member} (hdoc : ∀ x ∈ members, x.doc = none)
    (hmethod : ∀ x ∈ members, x.method = false)
    (htype : ∀ x ∈ members, ∀ t, x.type = some t → ReadsAt 0 (t.bare true) t) :
    Reads 3 parsePrimary (mark spaced "\x7b" :: (membersWords members ++ [mark true "\x7d"])) (.object members) := by
  intro n v vs hv hfits c hc
  simp only [List.append_assoc, List.cons_append, List.nil_append] at hfits hc
  obtain ⟨n, rfl⟩ := hfits.exists_succ
  have hm : members.length < n + 1 := by
    have hlength := hfits.1
    have hmore := length_le_membersWords members
    simp only [List.length_append, List.length_cons] at hlength
    omega
  have hfits := Fits.drop [mark spaced "\x7b"] hfits
  obtain ⟨d, hmembers, hd⟩ := parseMembers_spells hdoc hmethod htype hfits hc.next hm
  refine ⟨d.next, ?_, hd.next⟩
  have hobject : parseObject (.ofDepth (n + 1)) c = .ok (members, d.next) := by
    simp only [parseObject, hc.expect, rounds_ofDepth, hmembers, hd.expect, bind, Except.bind]
  rw [parsePrimary_mark hc, parsePunct, if_neg (by decide), if_neg (by decide), if_pos rfl,
    isMapped_eq_false hc, hobject]
  rfl

/-- **A type that can be written is read from its words**, at the place that its tightness tells. -/
theorem Printable.reads (h : Printable t) : ∀ spaced, ReadsAt t.tightness (t.bare spaced) t := by
  -- by induction on the type: a part is read at its own tightness, and so, enclosed, at the place where it stands
  induction h with
  | keyword h => exact fun spaced => by rw [bare]; exact Reads.suffixed (reads_keyword h)
  | string value => exact fun spaced => by rw [bare]; exact Reads.suffixed (reads_string value)
  | @number text h => exact fun spaced => by rw [bare, literalWords_number h]; exact Reads.suffixed (reads_number text)
  | @negative text h => exact fun spaced => by rw [bare, literalWords_negative]; exact Reads.suffixed (reads_negative text)
  | bool value => exact fun spaced => by rw [bare]; exact Reads.suffixed (reads_bool value)
  | @reference text args hname hargs ih =>
    have hname : ∀ part ∈ parts text, String.ofList part ∉ reserved := fun part hpart => (hname part hpart).2
    intro spaced
    cases args with
    | nil =>
      rw [bare]
      exact Reads.suffixed (reads_name hname)
    | cons t ts =>
      rw [bare]
      refine Reads.suffixed (reads_reference hname fun t' ht => ⟨(hargs t' ht).begins, ?_⟩)
      exact ReadsAt.enclosed (hargs t' ht).begins (ih t' ht) (by decide)
  | @array element h ih =>
    intro spaced
    rw [bare]
    exact ReadsSuffixed.array (ReadsAt.enclosed h.begins ih (Nat.le_refl 3) spaced)
  | @union ts hlength h ih =>
    intro spaced
    have hread (t) (ht : t ∈ ts) (spaced : Bool) : ReadsAt 1 (enclosed 1 t t.bare spaced) t :=
      ReadsAt.enclosed (h t ht).begins (ih t ht) (by decide) spaced
    obtain ⟨t, t', more, rfl⟩ := exists_cons_cons hlength
    rw [bare]
    exact Reads.union (((h t List.mem_cons_self).begins.enclosed 1 t).startsOpen spaced) (hread t List.mem_cons_self spaced)
      fun u hu => hread u (List.mem_cons_of_mem _ hu) true
  | @intersection ts hlength h ih =>
    intro spaced
    have hread (t) (ht : t ∈ ts) (spaced : Bool) : ReadsAt 2 (enclosed 2 t t.bare spaced) t :=
      ReadsAt.enclosed (h t ht).begins (ih t ht) (by decide) spaced
    obtain ⟨t, t', more, rfl⟩ := exists_cons_cons hlength
    rw [bare]
    exact Reads.intersection (((h t List.mem_cons_self).begins.enclosed 2 t).startsOpen spaced)
      (hread t List.mem_cons_self spaced) fun u hu => hread u (List.mem_cons_of_mem _ hu) true
  | @object members hdoc hmethod htype ih =>
    intro spaced
    rw [bare]
    refine Reads.suffixed (reads_object hdoc hmethod fun x hx t ht => ?_)
    exact (ih x hx t ht true).mono ((htype x hx t ht).begins.startsOpen true) (Nat.zero_le _)
  | @keyofTypeof text h =>
    intro spaced
    rw [bare]
    exact ReadsSuffixed.reads (Reads.suffixed (reads_keyofTypeof text))

/-! ## The alias of a written type -/

/-- The words of an alias for a type. -/
def aliasWords (t : TypeExpr) : List Word :=
  ⟨false, .ident, "type"⟩ :: ⟨true, .ident, "T"⟩ :: mark true "=" :: (t.bare true ++ [mark false ";"])

theorem spell_aliasWords (h : Printable t) :
    String.ofList (Word.spell (aliasWords t)) = "type T = " ++ t.print ++ ";" := by
  have hblank : Word.spell (t.bare true) = ' ' :: Word.spell (t.bare false) := by
    obtain ⟨hws, -⟩ := h.begins
    rw [hws, hws, Word.spell_cons, Word.spell_cons]
    rfl
  rw [aliasWords, Word.spell_cons, Word.spell_cons, Word.spell_cons, Word.spell_append, hblank, print]
  apply String.toList_injective
  simp [Word.spell, Word.chars, Word.gap, mark]

theorem readable_aliasWords (h : Printable t) : Word.Readable true (aliasWords t) [] := by
  have hend (operand : Bool) : Word.Readable operand [mark false ";"] [] :=
    readable_bracket (c := ';') rfl (by decide) fun operand => .nil operand []
  have htype (operand : Bool) : Word.Readable operand (t.bare true ++ [mark false ";"]) [] :=
    h.lexes true (.intro (by decide) _) hend operand
  refine readable_ident (by decide +kernel) ?_ (readable_ident (by decide +kernel) ?_ ?_)
  · rintro d ⟨⟩
    decide +kernel
  · rintro d ⟨⟩
    decide +kernel
  · refine readable_mark (c := '=') rfl (by decide) ?_ (by simp) (by simp) htype
    rw [Word.spell_append, List.append_assoc, h.begins.head?]
    decide

theorem aliasDecl_parse_spells (h : Printable t) (hfits : Fits n (t.bare true ++ [mark false ";"]))
    (hc : c.Spells (⟨spaced, .ident, text⟩ :: mark true "=" :: (t.bare true ++ [mark false ";"]))) :
    ∃ d, AliasDecl.parse (.ofDepth (n + 1)) c = .ok (⟨text, t⟩, d) ∧ d.Spells [] := by
  have hread := (h.reads true).mono (h.begins.startsOpen true) (Nat.zero_le _)
  obtain ⟨d, htype, hd⟩ := hread ⟨rfl, by decide⟩ hfits hc.next.next
  have htype : (Inner.ofDepth (n + 1)).type c.next.next = .ok (t, d) := htype
  have hname : c.identifier = .ok (text, c.next) := by
    obtain ⟨p, hpeek⟩ := hc.peek?
    rw [Cursor.identifier, hpeek]
    rfl
  have hangles : c.next.skipAnglesIfNext = .ok c.next := by
    rw [Cursor.skipAnglesIfNext, hc.next.nextIs]
    rfl
  have hskip : d.skip ";" = d.next := by rw [Cursor.skip, hd.eat?, Option.getD_some]
  refine ⟨d.next, ?_, hd.next⟩
  simp only [AliasDecl.parse, hname, hangles, hc.next.expect, htype, hskip, bind, Except.bind]

/-- An alias is parsed from its words. -/
theorem item_parse_spells (h : Printable t) (hfits : Fits n (t.bare true ++ [mark false ";"]))
    (hc : c.Spells (aliasWords t)) :
    ∃ d, Item.parse (.ofDepth (n + 1)) c = .ok ([.alias ⟨"T", t⟩], d) ∧ d.Spells [] := by
  obtain ⟨d, halias, hd⟩ := aliasDecl_parse_spells h hfits hc.next
  refine ⟨d, ?_, hd⟩
  have hident (text : String) (htext : "type" ≠ text) : c.nextIsIdent text = false := by
    rw [hc.nextIsIdent]
    simpa using htext
  have hskip : c.skipIdent "declare" = c := by
    rw [Cursor.skipIdent, Cursor.eatIdent?, hident "declare" (by decide)]
    rfl
  have hfunction : Item.beginsFunction c = false := by
    rw [Item.beginsFunction, hident "function" (by decide), hident "async" (by decide)]
    rfl
  have hname : c.nthIsKind 1 .ident = true := hc.nthIsKind 1 .ident
  have hequals : c.nthIs 2 "=" = true := hc.nthIs 2 "="
  obtain ⟨p, hpeek⟩ := hc.peek?
  have hword : Item.parseWord (.ofDepth (n + 1)) .none "type" c = .ok ([.alias ⟨"T", t⟩], d) := by
    simp [Item.parseWord, hfunction, hname, hequals, halias, Except.map]
  rw [Item.parse, hident "export" (by decide), Item.parseDeclaration, hskip, hpeek]
  exact hword

theorem ofTokens_aliasWords (h : Printable t) (p : Position) :
    Module.ofTokens (Word.tokensAt p (aliasWords t)) = .ok ⟨[.alias ⟨"T", t⟩]⟩ := by
  have hc : (Cursor.start (Word.tokensAt p (aliasWords t))).Spells (aliasWords t) := ⟨p, rfl⟩
  have hlength : (Word.tokensAt p (aliasWords t)).length = (t.bare true).length + 4 :=
    hc.length_eq.trans (by simp [aliasWords])
  have hfits : Fits ((t.bare true).length + 4) (t.bare true ++ [mark false ";"]) :=
    ⟨by rw [List.length_append, List.length_singleton]; omega, plain_append.mpr ⟨h.plain true, by simp [mark]⟩⟩
  obtain ⟨d, hitem, hd⟩ := item_parse_spells h hfits hc
  have hend : d.atEnd = true := by
    obtain ⟨q, hq⟩ := hd
    rw [Cursor.atEnd, hq]
    rfl
  have hbegin : (Cursor.start (Word.tokensAt p (aliasWords t))).atEnd = false := rfl
  have hsemicolon : (Cursor.start (Word.tokensAt p (aliasWords t))).eat? ";" = none :=
    hc.eat?_eq_none fun hkind => by cases hkind
  rw [Module.ofTokens, hlength]
  simp only [Item.parseAll, hbegin, hsemicolon, hitem, hend, bind, Except.bind, Except.map, Bool.false_eq_true, if_false,
    if_true, List.append_nil]

/-- **A type that can be written is parsed from its text** as the type of the alias that the text declares. -/
theorem ofSource_print (h : Printable t) :
    Module.ofSource ("type T = " ++ t.print ++ ";") = .ok ⟨[.alias ⟨"T", t⟩]⟩ := by
  have hmark : ¬ ['#', '!'] <+: Word.spell (aliasWords t) := by
    rintro ⟨r, hr⟩
    rw [aliasWords, Word.spell_cons] at hr
    have hfirst : some '#' = some 't' := congrArg List.head? hr
    exact absurd hfirst (by decide)
  rw [Module.ofSource, ← spell_aliasWords h, Word.tokenize_spell (readable_aliasWords h) hmark]
  exact ofTokens_aliasWords h .start

/-- Parentheses, nested angle brackets, a sign, an escaped quote and a member without a type are read back. -/
theorem ofSource_print_nested :
    Module.ofSource "type T = \x7b \"a\\\"\"?: (A.B<C<string>> | -1)[]; \"b\"; \x7d & (keyof typeof D)[];" =
      .ok ⟨[.alias ⟨"T", .intersection [
        .object [⟨"a\"", true, some (.array (.union
          [.reference "A.B" [.reference "C" [.keyword "string"]], .literal (.number "-1")])), none, false⟩,
          ⟨"b", false, none, none, false⟩],
        .array (.keyofTypeof "D")]⟩]⟩ := by
  have hnumber : Printable (.literal (.number ("-" ++ "1"))) := .negative (by decide +kernel)
  refine (congrArg Module.ofSource (by decide +kernel)).trans (ofSource_print (.intersection (by decide) ?_))
  refine List.forall_mem_cons.mpr ⟨.object (by simp) (by simp) ?_, List.forall_mem_singleton.mpr ?_⟩
  · rintro x hx t ht
    rcases List.mem_pair.mp hx with rfl | rfl
    · obtain rfl := Option.some.inj ht
      refine .array (.union (by decide) (List.forall_mem_cons.mpr ⟨?_, List.forall_mem_singleton.mpr hnumber⟩))
      refine .reference (by decide +kernel) (List.forall_mem_singleton.mpr ?_)
      exact .reference (by decide +kernel) (List.forall_mem_singleton.mpr (.keyword (by decide)))
    · cases ht
  · exact .array (.keyofTypeof (by decide +kernel))

end TypeExpr

end AppBundler
