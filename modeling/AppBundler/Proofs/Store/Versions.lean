import Mathlib.Data.List.Nodup
import Mathlib.Data.String.Basic
import AppBundler.Proofs.Store.Memory
/-!
# Two stores of versions

Records of versions are kept by app and hash in memory, or under ids in a table with an index over apps and hashes.
Both stores are asked the same things one after the other. Neither promises an order for its records, so each of them
may bring its own into another order at any time.

`Mirrors` relates the two: the rows of the table are the records in memory, each under its own id. Ids tell app and
hash apart, whatever characters these are made of, so that the index never refuses a record and an answer of the table
is the answer of the memory, up to the order in which records of one time are listed.
-/

namespace AppBundler

/-! ## Ids -/

/-- A mark that does not occur before it tells where a text is to be taken apart. -/
theorem append_mark_inj {s s' r r' : List Char} {mark : Char} (hs : mark ∉ s) (hs' : mark ∉ s')
    (h : s ++ mark :: r = s' ++ mark :: r') : s = s' ∧ r = r' := by
  have hfront : ∀ {s r : List Char}, mark ∉ s → (s ++ mark :: r).takeWhile (· ≠ mark) = s := by
    intro s r hs
    have hall : ∀ c ∈ s, decide (c ≠ mark) = true := fun c hc => by simpa using ne_of_mem_of_not_mem hc hs
    rw [List.takeWhile_append_of_pos hall, List.takeWhile_cons_of_neg (by simp), List.append_nil]
  obtain rfl : s = s' := by rw [← hfront hs, h, hfront hs']
  exact ⟨rfl, (List.cons.inj (List.append_cancel_left h)).2⟩

/-- Of two texts of one size neither goes on behind the other. -/
theorem eq_nil_of_utf8ByteSize_eq {s t : String} {x : List Char} (hsize : s.utf8ByteSize = t.utf8ByteSize)
    (h : t.toList = s.toList ++ x) : x = [] := by
  obtain rfl : t = s ++ String.ofList x := by simp [← String.toList_inj, h]
  have hzero : (String.ofList x).utf8ByteSize = 0 := by
    rw [String.utf8ByteSize_append] at hsize
    omega
  simpa [String.utf8ByteSize_eq_zero_iff, ← String.toList_inj] using hzero

/-- **An id tells the app and the hash.** Its number ends at the first line below, and then it tells where the id of the
app ends. -/
theorem versionId_injective {appId hash appId' hash' : String} (h : versionId appId hash = versionId appId' hash') :
    appId = appId' ∧ hash = hash' := by
  have hdigits : ∀ n : Nat, '_' ∉ (toString n).toList := by
    intro n hmem
    rw [Nat.toString_eq_repr, Nat.toList_repr] at hmem
    exact absurd (Nat.isDigit_of_mem_toDigits (by decide) (by decide) hmem) (by decide)
  have hmark : "_".toList = ['_'] := by decide
  simp only [versionId, ← String.toList_inj, String.toList_append, hmark, List.append_assoc, List.singleton_append] at h
  obtain ⟨hlength, hrest⟩ := append_mark_inj (hdigits _) (hdigits _) h
  have hsize : appId.utf8ByteSize = appId'.utf8ByteSize := by
    rw [Nat.toString_eq_repr, Nat.toString_eq_repr, Nat.toList_repr, Nat.toList_repr] at hlength
    rw [← Nat.ofDigitChars_ten_toDigits (n := appId.utf8ByteSize), hlength, Nat.ofDigitChars_ten_toDigits]
  rcases List.append_eq_append_iff.mp hrest with ⟨x, hx, htail⟩ | ⟨x, hx, htail⟩
  · obtain rfl := eq_nil_of_utf8ByteSize_eq hsize hx
    rw [List.append_nil, String.toList_inj] at hx
    exact ⟨hx.symm, String.toList_inj.mp (List.cons.inj htail).2⟩
  · obtain rfl := eq_nil_of_utf8ByteSize_eq hsize.symm hx
    rw [List.append_nil, String.toList_inj] at hx
    exact ⟨hx, String.toList_inj.mp (List.cons.inj htail).2.symm⟩

/-- The row of a record in a table. -/
def VersionRecord.row (r : VersionRecord) : String × VersionRecord := (versionId r.appId r.hash, r)

/-- A record belongs to an app and a hash exactly when its row has their id. -/
theorem VersionRecord.isFor_iff {r : VersionRecord} {appId hash : String} :
    r.isFor appId hash = true ↔ versionId r.appId r.hash = versionId appId hash := by
  constructor
  · intro h
    obtain ⟨rfl, rfl⟩ : r.appId = appId ∧ r.hash = hash := by simpa [isFor] using h
    rfl
  · intro h
    simpa [isFor] using versionId_injective h

/-! ## Asking -/

/-- What a store is asked for. -/
inductive VersionCall where
  | upsert (r : VersionRecord)
  | find (appId hash : String)
  | list (appId : String)

/-- What a store answers. -/
inductive VersionAnswer where
  | stored (r : VersionRecord)
  /-- The index has another record of the same app and hash. -/
  | refused
  | found (r : Option VersionRecord)
  | listed (records : List VersionRecord)

/-- The answer of a memory, and what it holds afterwards. -/
def VersionMemory.answer (m : VersionMemory) : VersionCall → VersionAnswer × VersionMemory
  | .upsert r => (.stored r, m.upsert r)
  | .find appId hash => (.found (m.find? appId hash), m)
  | .list appId => (.listed (m.list appId), m)

/-- The answer of a table, and what it holds afterwards. -/
def VersionTable.answer (t : VersionTable) : VersionCall → VersionAnswer × VersionTable
  | .upsert r =>
    match t.upsert? r with
    | some t => (.stored r, t)
    | none => (.refused, t)
  | .find appId hash => (.found (t.find? appId hash), t)
  | .list appId => (.listed (t.list appId), t)

/-- A store is asked for one thing after the other. Before each of them it may take the form of another store that
holds the same. -/
inductive VersionCall.Answered {Store : Type} (answer : Store → VersionCall → VersionAnswer × Store)
    (holdsSame : Store → Store → Prop) : Store → List VersionCall → List VersionAnswer → Store → Prop
  | nil {s : Store} : Answered answer holdsSame s [] [] s
  | cons {s s' last : Store} {call : VersionCall} {calls : List VersionCall} {answers : List VersionAnswer}
      (hsame : holdsSame s s') (h : Answered answer holdsSame (answer s' call).2 calls answers last) :
      Answered answer holdsSame s (call :: calls) ((answer s' call).1 :: answers) last

/-- Every sequence of calls is answered. -/
theorem VersionCall.exists_answered {Store : Type} (answer : Store → VersionCall → VersionAnswer × Store)
    {holdsSame : Store → Store → Prop} (hrefl : ∀ s, holdsSame s s) (calls : List VersionCall) (s : Store) :
    ∃ answers last, Answered answer holdsSame s calls answers last := by
  induction calls generalizing s with
  | nil => exact ⟨_, _, .nil⟩
  | cons call calls ih =>
    obtain ⟨answers, last, h⟩ := ih (answer s call).2
    exact ⟨_, _, .cons (hrefl s) h⟩

/-- The same records in any order. -/
def VersionMemory.HoldsSame (m m' : VersionMemory) : Prop := m.records.Perm m'.records

theorem VersionMemory.HoldsSame.refl (m : VersionMemory) : m.HoldsSame m := List.Perm.refl m.records

/-- The same rows in any order. -/
def VersionTable.HoldsSame (t t' : VersionTable) : Prop := t.rows.Perm t'.rows

theorem VersionTable.HoldsSame.refl (t : VersionTable) : t.HoldsSame t := List.Perm.refl t.rows

/-- No record is newer than the one before it. -/
def NewestFirst (records : List VersionRecord) : Prop := records.Pairwise fun a b => b.createdAt ≤ a.createdAt

/-- Answers that say the same. Only records of one time may be listed in different orders. -/
inductive VersionAnswer.Agrees : VersionAnswer → VersionAnswer → Prop
  | stored (r : VersionRecord) : Agrees (.stored r) (.stored r)
  | found (r : Option VersionRecord) : Agrees (.found r) (.found r)
  | listed {records records' : List VersionRecord} (hperm : records.Perm records') (horder : NewestFirst records)
      (horder' : NewestFirst records') : Agrees (.listed records) (.listed records')

/-! ## Listing -/

/-- Records are listed newest first. -/
theorem newestFirst_ordered (appId : String) (records : List VersionRecord) :
    NewestFirst (newestFirst appId records) := by
  have hsorted : (newestFirst appId records).Pairwise fun a b => decide (b.createdAt ≤ a.createdAt) := by
    refine List.pairwise_mergeSort ?_ ?_ _
    · intro a b c hab hbc
      simp only [decide_eq_true_eq] at hab hbc ⊢
      exact Int.le_trans hbc hab
    · intro a b
      simpa using Int.le_total b.createdAt a.createdAt
  exact hsorted.imp fun hab => by simpa using hab

/-- Which records are listed does not depend on their order. -/
theorem newestFirst_perm (appId : String) {records records' : List VersionRecord} (h : records.Perm records') :
    (newestFirst appId records).Perm (newestFirst appId records') :=
  (List.mergeSort_perm _ _).trans ((h.filter _).trans (List.mergeSort_perm _ _).symm)

/-! ## Finding -/

namespace VersionMemory

variable {m : VersionMemory} {r : VersionRecord} {appId hash : String}

/-- The record of an app and a hash is found. -/
theorem IsKeyed.find?_eq_some_iff (h : m.IsKeyed) :
    m.find? appId hash = some r ↔ r ∈ m.records ∧ r.isFor appId hash = true := by
  constructor
  · intro hfind
    have hfor := List.find?_some hfind
    exact ⟨List.mem_of_find?_eq_some hfind, hfor⟩
  · rintro ⟨hr, hfor⟩
    obtain ⟨other, hfind⟩ : ∃ other, m.find? appId hash = some other :=
      Option.isSome_iff_exists.mp (List.find?_isSome.mpr ⟨r, hr, hfor⟩)
    obtain ⟨hother, hid, hhash⟩ := mem_of_find? hfind
    obtain ⟨rfl, rfl⟩ : r.appId = appId ∧ r.hash = hash := by simpa [VersionRecord.isFor] using hfor
    obtain rfl := List.inj_on_of_nodup_map h hother hr (Prod.ext hid hhash)
    exact hfind

end VersionMemory

namespace VersionTable

variable {t t' : VersionTable} {m m' : VersionMemory} {r : VersionRecord} {call : VersionCall}

/-- The rows of a table are the records in a memory, of which there is one for each app and hash. -/
structure Mirrors (t : VersionTable) (m : VersionMemory) : Prop where
  keyed : m.IsKeyed
  rows : t.rows.Perm (m.records.map VersionRecord.row)

namespace Mirrors

/-- The order of rows and records does not count. -/
theorem rearrange (h : t.Mirrors m) (ht : t.HoldsSame t') (hm : m.HoldsSame m') : t'.Mirrors m' :=
  ⟨(hm.map _).nodup_iff.mp h.keyed, ht.symm.trans (h.rows.trans (hm.map _))⟩

/-- A row is that of a record in memory. -/
theorem mem_rows_iff (h : t.Mirrors m) {row : String × VersionRecord} :
    row ∈ t.rows ↔ ∃ r ∈ m.records, r.row = row := by
  rw [h.rows.mem_iff, List.mem_map]

/-- **The table finds what the memory finds.** -/
theorem find?_eq (h : t.Mirrors m) (appId hash : String) : t.find? appId hash = m.find? appId hash := by
  -- Among the rows in the order of the records, a row has the id exactly when its record is asked for.
  ext r
  rw [h.keyed.find?_eq_some_iff]
  constructor
  · intro hfind
    obtain ⟨row, hrow, rfl⟩ := Option.map_eq_some_iff.mp hfind
    obtain ⟨r, hr, rfl⟩ := h.mem_rows_iff.mp (List.mem_of_find?_eq_some hrow)
    have hid := List.find?_some hrow
    exact ⟨hr, VersionRecord.isFor_iff.mpr (of_decide_eq_true hid)⟩
  · rintro ⟨hr, hfor⟩
    have hid := VersionRecord.isFor_iff.mp hfor
    obtain ⟨row, hrow⟩ : ∃ row, t.rows.find? (fun row => row.1 = versionId appId hash) = some row := by
      have hrow : r.row ∈ t.rows := h.mem_rows_iff.mpr ⟨r, hr, rfl⟩
      exact Option.isSome_iff_exists.mp (List.find?_isSome.mpr ⟨r.row, hrow, decide_eq_true hid⟩)
    obtain ⟨other, hother, rfl⟩ := h.mem_rows_iff.mp (List.mem_of_find?_eq_some hrow)
    have hother_id := List.find?_some hrow
    have hsame : versionId other.appId other.hash = versionId r.appId r.hash :=
      (of_decide_eq_true hother_id).trans hid.symm
    obtain rfl := List.inj_on_of_nodup_map h.keyed hother hr (Prod.ext_iff.mpr (versionId_injective hsame))
    exact Option.map_eq_some_iff.mpr ⟨_, hrow, rfl⟩

/-- **The index refuses no record**: one of the same app and hash stands under the same id. -/
theorem not_violates (h : t.Mirrors m) (r : VersionRecord) : t.violates r = false := by
  rw [violates, List.any_eq_false]
  intro row hrow
  obtain ⟨other, -, rfl⟩ := h.mem_rows_iff.mp hrow
  rw [Bool.and_eq_true, VersionRecord.isFor_iff]
  rintro ⟨hid, hsame⟩
  exact of_decide_eq_true hid hsame

/-- A record is put into both. -/
theorem upsert (h : t.Mirrors m) (r : VersionRecord) : ∃ t', t.upsert? r = some t' ∧ t'.Mirrors (m.upsert r) := by
  refine ⟨_, by rw [upsert?, if_neg (by simp [h.not_violates r])], h.keyed.upsert r, ?_⟩
  have hkept : (m.records.map VersionRecord.row).filter (fun row => row.1 ≠ versionId r.appId r.hash) =
      (m.records.filter fun old => !old.isFor r.appId r.hash).map VersionRecord.row := by
    rw [List.filter_map]
    congr 1
    refine List.filter_congr fun old _ => Bool.eq_iff_iff.mpr ?_
    simp [VersionRecord.row, ← VersionRecord.isFor_iff]
  exact ((h.rows.filter _).trans (hkept ▸ .refl _)).cons _

/-- The records of an app are listed, newest first. -/
theorem list_perm (h : t.Mirrors m) (appId : String) : (t.list appId).Perm (m.list appId) := by
  refine newestFirst_perm appId ((h.rows.map _).trans ?_)
  rw [List.map_map]
  exact List.Perm.of_eq (List.map_id _)

/-- **A table answers as the memory that it mirrors**, and goes on mirroring it. -/
theorem answer (h : t.Mirrors m) (call : VersionCall) :
    (t.answer call).1.Agrees (m.answer call).1 ∧ (t.answer call).2.Mirrors (m.answer call).2 := by
  cases call with
  | upsert r =>
    obtain ⟨t', hupsert, hmirrors⟩ := h.upsert r
    simp only [VersionTable.answer, VersionMemory.answer, hupsert]
    exact ⟨.stored r, hmirrors⟩
  | find appId hash =>
    simp only [VersionTable.answer, VersionMemory.answer, h.find?_eq]
    exact ⟨.found _, h⟩
  | list appId => exact ⟨.listed (h.list_perm appId) (newestFirst_ordered _ _) (newestFirst_ordered _ _), h⟩

/-- **All answers agree**, and in the end the table still mirrors the memory. -/
theorem answered {calls : List VersionCall} {answers answers' : List VersionAnswer} (h : t.Mirrors m)
    (ht : VersionCall.Answered VersionTable.answer HoldsSame t calls answers t')
    (hm : VersionCall.Answered VersionMemory.answer VersionMemory.HoldsSame m calls answers' m') :
    List.Forall₂ VersionAnswer.Agrees answers answers' ∧ t'.Mirrors m' := by
  induction ht generalizing m answers' with
  | nil =>
    cases hm
    exact ⟨.nil, h⟩
  | cons hsame _ ih =>
    cases hm with
    | cons hsame' hm =>
      obtain ⟨hagrees, hnext⟩ := (h.rearrange hsame hsame').answer _
      obtain ⟨hrest, hlast⟩ := ih hnext hm
      exact ⟨.cons hagrees hrest, hlast⟩

end Mirrors

/-- **Both stores answer the same.** A table and a memory that were empty are asked the same things, each with its
records in an order of its own: the table refuses no record, keeps one for each app and hash, finds what the memory
finds, and lists the same records newest first. -/
theorem answers_agree {calls : List VersionCall} {answers answers' : List VersionAnswer}
    (ht : VersionCall.Answered VersionTable.answer HoldsSame ⟨[]⟩ calls answers t)
    (hm : VersionCall.Answered VersionMemory.answer VersionMemory.HoldsSame ⟨[]⟩ calls answers' m) :
    List.Forall₂ VersionAnswer.Agrees answers answers' ∧ VersionAnswer.refused ∉ answers ∧
      (t.rows.map fun row => (row.2.appId, row.2.hash)).Nodup := by
  have hempty : Mirrors ⟨[]⟩ ⟨[]⟩ := ⟨List.nodup_nil, .refl _⟩
  obtain ⟨hagree, hmirrors⟩ := hempty.answered ht hm
  refine ⟨hagree, ?_, ?_⟩
  · intro hrefused
    obtain ⟨i, hi⟩ := List.mem_iff_getElem?.mp hrefused
    obtain ⟨hlt, hi⟩ := List.getElem?_eq_some_iff.mp hi
    have hagrees := hagree.get hlt (hagree.length_eq ▸ hlt)
    rw [List.get_eq_getElem, hi] at hagrees
    cases hagrees
  · have hkeyed := hmirrors.keyed
    have hperm := hmirrors.rows.map fun row => (row.2.appId, row.2.hash)
    rw [List.map_map] at hperm
    exact hperm.nodup_iff.mpr hkeyed

/-- A record of an app and a hash, made at one time with all others like it. -/
def recordFor (appId hash : String) : VersionRecord := ⟨appId, hash, hash, true, ⟨""⟩, 0⟩

/-- Two records whose ids differ only in the number, a third one of the same app and time as the second, then calls for
one of the first two and for the versions of the app. -/
def confusableCalls : List VersionCall := [
  .upsert (recordFor "team_x" "h"), .upsert (recordFor "team" "x_h"), .upsert (recordFor "team" "h"),
  .find "team" "x_h", .list "team"]

/-- What the memory answers to them. -/
def confusableAnswers : List VersionAnswer := [
  .stored (recordFor "team_x" "h"), .stored (recordFor "team" "x_h"), .stored (recordFor "team" "h"),
  .found (some (recordFor "team" "x_h")), .listed [recordFor "team" "x_h", recordFor "team" "h"]]

/-- The table answers as the memory, which turns its three records around before it lists them. -/
theorem answers_agree_confusable :
    ∃ answers t m, VersionCall.Answered VersionTable.answer HoldsSame ⟨[]⟩ confusableCalls answers t ∧
      VersionCall.Answered VersionMemory.answer VersionMemory.HoldsSame ⟨[]⟩ confusableCalls confusableAnswers m ∧
      List.Forall₂ VersionAnswer.Agrees answers confusableAnswers ∧ VersionAnswer.refused ∉ answers ∧
      (t.rows.map fun row => (row.2.appId, row.2.hash)).Nodup := by
  obtain ⟨answers, t, ht⟩ : ∃ answers t, VersionCall.Answered VersionTable.answer HoldsSame ⟨[]⟩ confusableCalls answers t :=
    VersionCall.exists_answered _ HoldsSame.refl _ _
  have hturned : VersionMemory.HoldsSame
      ⟨[recordFor "team" "h", recordFor "team" "x_h", recordFor "team_x" "h"]⟩
      ⟨[recordFor "team_x" "h", recordFor "team" "x_h", recordFor "team" "h"]⟩ := (List.reverse_perm _).symm
  have hlist : VersionMemory.list ⟨[recordFor "team_x" "h", recordFor "team" "x_h", recordFor "team" "h"]⟩ "team" =
      [recordFor "team" "x_h", recordFor "team" "h"] := List.mergeSort_of_pairwise (by decide)
  have hlast : VersionCall.Answered VersionMemory.answer VersionMemory.HoldsSame
      ⟨[recordFor "team" "h", recordFor "team" "x_h", recordFor "team_x" "h"]⟩ [.list "team"]
      [.listed (VersionMemory.list ⟨[recordFor "team_x" "h", recordFor "team" "x_h", recordFor "team" "h"]⟩ "team")]
      ⟨[recordFor "team_x" "h", recordFor "team" "x_h", recordFor "team" "h"]⟩ := .cons hturned .nil
  rw [hlist] at hlast
  have hm : VersionCall.Answered VersionMemory.answer VersionMemory.HoldsSame ⟨[]⟩ confusableCalls confusableAnswers _ :=
    .cons (VersionMemory.HoldsSame.refl _) (.cons (VersionMemory.HoldsSame.refl _)
      (.cons (VersionMemory.HoldsSame.refl _) (.cons (VersionMemory.HoldsSame.refl _) hlast)))
  exact ⟨answers, t, _, ht, hm, answers_agree ht hm⟩

end VersionTable

end AppBundler
