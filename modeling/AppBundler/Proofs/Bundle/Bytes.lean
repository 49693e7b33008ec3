import AppBundler.Files.Tree
import AppBundler.Proofs.Bundle.Lookup
import AppBundler.Proofs.Bundle.Texts
/-!
# Artifacts as bytes

An artifact is stored as the bytes of its text, and whoever runs it reads it back from them and looks for records and
content in what was read. The main statement takes both ways together: the artifact that is read is the one that was
made, and what is found in it is told by the records that it was made of, in whichever order they came.
-/

namespace AppBundler

/-- The bytes of a text are the bytes of this text and no other one. -/
theorem FileTree.textOf_utf8Bytes (s : String) : textOf (utf8Bytes s) = .ok s := by
  have hread : String.fromUTF8? s.toByteArray = some s := dif_pos s.isValidUTF8
  rw [textOf, utf8Bytes, Array.toArray_toList, hread]

namespace Artifact

variable {a : Artifact} {roots : List String} {records : List GraphModule}

/-- The bytes under which an artifact is stored. -/
def bytes (a : Artifact) : List UInt8 := utf8Bytes a.text

/-- The artifact of stored bytes. -/
def ofBytes? (bytes : List UInt8) : Option Artifact := (FileTree.textOf bytes).toOption.bind ofText?

/-- The bytes of an artifact are read back as the artifact. -/
theorem ofBytes?_bytes (h : a.IsTidy) : ofBytes? a.bytes = some a := by
  rw [ofBytes?, bytes, FileTree.textOf_utf8Bytes, Except.toOption, Option.bind_some, ofText?_text h]

/-- **An artifact is read back as it was made, and every record is found in it.** A record is found under its
specifier, and content under the specifier of its module and under those that redirect to it. Nothing is found anywhere
else, and the order in which the records came does not show. -/
theorem readBack_and_found (htidy : ∀ g ∈ records, g.IsTidy) (hdistinct : (records.map GraphModule.specifier).Nodup) :
    ofBytes? (ofModules roots records).bytes = some (ofModules roots records) ∧
      (∀ specifier g, (ofModules roots records).module? specifier = some g ↔ g ∈ records ∧ g.specifier = specifier) ∧
      (∀ specifier text, (ofModules roots records).content? specifier = some text ↔
        ∃ m, .module m ∈ records ∧ m.content = text ∧
          (m.specifier = specifier ∨ .redirect specifier m.specifier ∈ records)) ∧
      ∀ records', records.Perm records' → ofModules roots records' = ofModules roots records := by
  have hsorted : (ofModules roots records).IsSorted := isSorted_ofModules hdistinct
  refine ⟨ofBytes?_bytes fun g hg => htidy g (mem_ofModules.mp hg), ?_, ?_, ?_⟩
  · intro specifier g
    rw [module?_eq_some_iff hsorted, mem_ofModules]
  · intro specifier text
    simp only [content?_eq_some_iff hsorted, mem_ofModules]
  · intro records' hperm
    exact (ofModules_congr hdistinct hperm).symm

/-- A script with a quote, a backslash, a control character and a letter of two bytes in its code. -/
def storedScript : SourceModule :=
  ⟨"file:///src/b.tsx", [("age", "0"), ("content-type", "text/typescript")], "\"\\\u0001ü\";"⟩

/-- The script, the name that redirects to it, and a module of the runtime, not in the order of their specifiers. -/
def storedRecords : List GraphModule :=
  [.external "node:fs", .module storedScript, .redirect "file:///src/b.ts" "file:///src/b.tsx"]

/-- The script is found under both names after the artifact was read back, and no content is found under the name of
the runtime's module. -/
theorem readBack_and_found_script :
    (∀ g ∈ storedRecords, g.IsTidy) ∧ (storedRecords.map GraphModule.specifier).Nodup ∧
      ∃ a, ofBytes? (ofModules ["file:///src/b.ts"] storedRecords).bytes = some a ∧
        a.content? "file:///src/b.ts" = some storedScript.content ∧
        a.content? "file:///src/b.tsx" = some storedScript.content ∧
        a.module? "node:fs" = some (.external "node:fs") ∧ (∀ text, a.content? "node:fs" ≠ some text) ∧
        a = ofModules ["file:///src/b.ts"] storedRecords.reverse := by
  have hscript : ∀ m, .module m ∈ storedRecords → m = storedScript := by
    intro m hm
    simpa [storedRecords] using hm
  have htidy : ∀ g ∈ storedRecords, g.IsTidy := by
    rintro g hg m rfl
    rw [hscript m hg]
    unfold SourceModule.IsTidy HeadersInOrder
    decide
  have hdistinct : (storedRecords.map GraphModule.specifier).Nodup := by decide
  obtain ⟨hread, hmodule, hcontent, horder⟩ := readBack_and_found htidy hdistinct
  refine ⟨htidy, hdistinct, _, hread, ?_, ?_, ?_, ?_, (horder _ (List.reverse_perm _).symm).symm⟩
  · exact (hcontent _ _).mpr ⟨storedScript, by decide, rfl, Or.inr (by decide)⟩
  · exact (hcontent _ _).mpr ⟨storedScript, by decide, rfl, Or.inl rfl⟩
  · exact (hmodule _ _).mpr ⟨by decide, rfl⟩
  · intro text hfound
    obtain ⟨m, hm, -, hname⟩ := (hcontent _ _).mp hfound
    rw [hscript m hm] at hname
    revert hname
    decide

end Artifact

end AppBundler
