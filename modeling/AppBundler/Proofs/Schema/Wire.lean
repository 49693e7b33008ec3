import AppBundler.Proofs.Json.Collections
import AppBundler.Schema.Wire
/-!
# Nodes are read back from their JSON

What a node is written as is read as that node, and as nothing else: each kind of node has members of its own, so
only the two shapes of an array could be mistaken for each other. They are told apart twice, by what stands in
`elements` and by the flag `isUnion`. When the flag of one array is the wrong one, that array cannot be read, and
neither can anything that it stands in.
-/

namespace AppBundler

/-- A kind has the name that it is read from. -/
theorem PrimitiveKind.ofName?_toName (kind : PrimitiveKind) : ofName? kind.toName = some kind := by
  cases kind <;> rfl

/-- A value of an enum is read back. -/
theorem EnumValue.ofJson?_toJson (value : EnumValue) : ofJson? value.toJson = some value := by
  cases value <;> rfl

namespace Json

/-! ## Depth -/

theorem depth_le_elementDepth {x : Json} {xs : List Json} (h : x ∈ xs) : x.depth ≤ elementDepth xs := by
  induction h with
  | head xs => exact le_max_left _ _
  | tail y _ ih => exact ih.trans (le_max_right _ _)

theorem depth_le_memberDepth {name : String} {v : Json} {ms : List (String × Json)} (h : (name, v) ∈ ms) :
    v.depth ≤ memberDepth ms := by
  induction h with
  | head ms => exact le_max_left _ _
  | tail m _ ih =>
    obtain ⟨_, w⟩ := m
    exact ih.trans (le_max_right w.depth _)

/-! ## Flipped flags -/

mutual

/-- The second value is the first one but for one array node in it, whose flag is the other one. -/
inductive FlagFlipped : Json → Json → Prop where
  | here (isUnion : Bool) (elements : Json) :
    FlagFlipped (.object [("kind", .string "array"), ("isUnion", .bool isUnion), ("elements", elements)])
      (.object [("kind", .string "array"), ("isUnion", .bool !isUnion), ("elements", elements)])
  | element {xs ys : List Json} : ElementFlipped xs ys → FlagFlipped (.array xs) (.array ys)
  | member {ms ns : List (String × Json)} : MemberFlipped ms ns → FlagFlipped (.object ms) (.object ns)

/-- The flag is flipped in one of the elements. -/
inductive ElementFlipped : List Json → List Json → Prop where
  | head {x y : Json} (rest : List Json) : FlagFlipped x y → ElementFlipped (x :: rest) (y :: rest)
  | tail (x : Json) {xs ys : List Json} : ElementFlipped xs ys → ElementFlipped (x :: xs) (x :: ys)

/-- The flag is flipped in the value of one of the members. -/
inductive MemberFlipped : List (String × Json) → List (String × Json) → Prop where
  | head {v w : Json} (name : String) (rest : List (String × Json)) :
    FlagFlipped v w → MemberFlipped ((name, v) :: rest) ((name, w) :: rest)
  | tail (m : String × Json) {ms ns : List (String × Json)} : MemberFlipped ms ns → MemberFlipped (m :: ms) (m :: ns)

end

/-- The element in which the flag is flipped. -/
theorem ElementFlipped.exists_flipped {xs ys : List Json} :
    ElementFlipped xs ys → ∃ x ∈ xs, ∃ y ∈ ys, FlagFlipped x y
  | .head _ h => ⟨_, List.mem_cons_self, _, List.mem_cons_self, h⟩
  | .tail x h =>
    have ⟨y, hy, z, hz, hflipped⟩ := h.exists_flipped
    ⟨y, List.mem_cons_of_mem x hy, z, List.mem_cons_of_mem x hz, hflipped⟩

end Json

namespace Node

open Json

/-! ## What the JSON of each kind is read as -/

section Reading

variable {n : Nat} {inside : Bool}

theorem listToJson_eq_map (nodes : List Node) : listToJson nodes = nodes.map toJson := by
  induction nodes with
  | nil => rfl
  | cons node nodes ih => rw [listToJson, ih, List.map_cons]

/-- A property as JSON. -/
def propertyToJson (p : String × Node) : Json := .object [("key", .string p.1), ("node", p.2.toJson)]

theorem propertiesToJson_eq_map (properties : List (String × Node)) :
    propertiesToJson properties = properties.map propertyToJson := by
  induction properties with
  | nil => rfl
  | cons p properties ih =>
    obtain ⟨key, node⟩ := p
    rw [propertiesToJson, ih, List.map_cons]
    rfl

/-- A node is written as an object. -/
theorem toJson_eq_object (node : Node) : ∃ ms, node.toJson = .object ms := by
  cases node with
  | primitive kind literal => cases literal <;> exact ⟨_, rfl⟩
  | array | unionArray | object | union | enum => exact ⟨_, rfl⟩

theorem toJson_objects (nodes : List Node) : ∀ x ∈ nodes.map toJson, ∃ ms, x = .object ms := by
  intro x hx
  obtain ⟨node, -, rfl⟩ := List.mem_map.mp hx
  exact node.toJson_eq_object

/-- An object that names its kind is read by its members. -/
theorem ofJsonWithin?_object {kind : String} {ms : List (String × Json)}
    (h : Json.lookup "kind" ms = some (.string kind)) :
    ofJsonWithin? (n + 1) inside (.object ms) =
      ofFields? (ofJsonWithin? n true) kind fun _ name => Json.lookup name ms := by
  simp [ofJsonWithin?, readFields?, readKind?, h]

/-- The two shapes of an array are told apart by its flag and by what its elements are read as. -/
theorem ofJsonWithin?_array (isUnion : Bool) (elements : Json) :
    ofJsonWithin? (n + 1) inside
        (.object [("kind", .string "array"), ("isUnion", .bool isUnion), ("elements", elements)]) =
      (readElements? (ofJsonWithin? n true) elements).bind fun read =>
        match isUnion, read with
        | true, .inl nodes => some (.unionArray nodes)
        | false, .inr node => some (.array node)
        | _, _ => none := by
  rw [ofJsonWithin?_object rfl]
  rfl

theorem ofJsonWithin?_properties (xs : List Json) :
    ofJsonWithin? (n + 1) inside (.object [("kind", .string "object"), ("properties", .array xs)]) =
      (xs.mapM (readProperty? (ofJsonWithin? n true))).map .object := by
  rw [ofJsonWithin?_object rfl, Option.map_eq_bind]
  rfl

theorem ofJsonWithin?_variants (xs : List Json) :
    ofJsonWithin? (n + 1) inside (.object [("kind", .string "union"), ("variants", .array xs)]) =
      (xs.mapM (ofJsonWithin? n true)).map .union := by
  rw [ofJsonWithin?_object rfl, Option.map_eq_bind]
  rfl

theorem ofJsonWithin?_values (xs : List Json) :
    ofJsonWithin? (n + 1) inside (.object [("kind", .string "enum"), ("values", .array xs)]) =
      (xs.mapM EnumValue.ofJson?).map .enum := by
  rw [ofJsonWithin?_object rfl, Option.map_eq_bind]
  rfl

/-- A property is read by reading its node. -/
theorem readProperty?_object (read : Json → Option Node) (key : String) (j : Json) :
    readProperty? read (.object [("key", .string key), ("node", j)]) = (read j).map fun node => (key, node) := by
  rw [Option.map_eq_bind]
  rfl

/-- An object is read as a single element. -/
theorem readElements?_object (read : Json → Option Node) (ms : List (String × Json)) :
    readElements? read (.object ms) = (read (.object ms)).map .inr := rfl

/-- Elements that are objects are read as several nodes or not at all: an object does not name a kind, so the array
of them is no node. -/
theorem readElements?_objects {xs : List Json} (h : ∀ x ∈ xs, ∃ ms, x = .object ms) :
    readElements? (ofJsonWithin? n inside) (.array xs) = (xs.mapM (ofJsonWithin? n inside)).map .inl := by
  have hnode : ofJsonWithin? n inside (.array xs) = none := by
    cases n with
    | zero => rfl
    | succ n =>
      cases xs with
      | nil => rfl
      | cons x xs =>
        obtain ⟨ms, rfl⟩ := h _ List.mem_cons_self
        rfl
  rw [readElements?]
  cases hread : xs.mapM (ofJsonWithin? n inside) with
  | none => rw [hnode]; rfl
  | some nodes => rfl

end Reading

/-! ## Reading back -/

/-- A node is read back from its JSON at any depth that the JSON has room in. -/
theorem ofJsonWithin?_toJson {n : Nat} (node : Node) (inside : Bool) (h : node.toJson.depth ≤ n) :
    ofJsonWithin? n inside node.toJson = some node := by
  induction n generalizing node inside with
  | zero =>
    obtain ⟨ms, hms⟩ := node.toJson_eq_object
    rw [hms] at h
    exact absurd h (Nat.not_succ_le_zero _)
  | succ n ih =>
    have hnodes : ∀ nodes : List Node, elementDepth (nodes.map toJson) ≤ n →
        (nodes.map toJson).mapM (ofJsonWithin? n true) = some nodes := fun nodes hdepth =>
      mapM_map_eq_some fun node hnode =>
        ih node true ((depth_le_elementDepth (List.mem_map_of_mem hnode)).trans hdepth)
    cases node with
    | primitive kind literal => 
      cases literal with
      | none => cases kind <;> rfl
      | some text => cases kind <;> rfl
    | array element =>
      obtain ⟨ms, hms⟩ := element.toJson_eq_object
      have hdepth : element.toJson.depth ≤ n := by
        simp only [toJson, depth, memberDepth] at h
        omega
      rw [toJson, ofJsonWithin?_array, hms, readElements?_object, ← hms, ih element true hdepth]
      rfl
    | unionArray members =>
      have hdepth : elementDepth (members.map toJson) ≤ n := by
        simp only [toJson, depth, memberDepth, listToJson_eq_map] at h
        omega
      rw [toJson, listToJson_eq_map, ofJsonWithin?_array, readElements?_objects (toJson_objects members),
        hnodes members hdepth]
      rfl
    | object properties =>
      simp only [toJson, depth, memberDepth, propertiesToJson_eq_map] at h
      have hproperty : ∀ p ∈ properties, readProperty? (ofJsonWithin? n true) (propertyToJson p) = some p := by
        intro p hp
        have hdepth := depth_le_elementDepth (List.mem_map_of_mem (f := propertyToJson) hp)
        simp only [propertyToJson, depth, memberDepth] at hdepth
        rw [propertyToJson, readProperty?_object, ih p.2 true (by omega)]
        rfl
      rw [toJson, propertiesToJson_eq_map, ofJsonWithin?_properties, mapM_map_eq_some hproperty]
      rfl
    | union variants =>
      have hdepth : elementDepth (variants.map toJson) ≤ n := by
        simp only [toJson, depth, memberDepth, listToJson_eq_map] at h
        omega
      rw [toJson, listToJson_eq_map, ofJsonWithin?_variants, hnodes variants hdepth]
      rfl
    | enum values =>
      rw [toJson, ofJsonWithin?_values, mapM_map_eq_some fun value _ => value.ofJson?_toJson]
      rfl

theorem ofJson?_toJson (node : Node) : ofJson? node.toJson = some node := ofJsonWithin?_toJson node false le_rfl

/-! ## Flipped flags -/

section Flipped

variable {name : String} {v j : Json}

/-- There is no flag in an object with only a text. -/
theorem not_flipped_text {kind text : String} : ¬FlagFlipped (.object [(kind, .string text)]) j := by
  intro h
  cases h with
  | member h =>
    cases h with
    | head _ _ h => cases h
    | tail _ h => cases h

/-- In an object with a text and one more member only that member can hold a flipped flag. -/
theorem flipped_of_member {kind text : String} (h : FlagFlipped (.object [(kind, .string text), (name, v)]) j) :
    ∃ w, FlagFlipped v w ∧ j = .object [(kind, .string text), (name, w)] := by
  cases h with
  | member h =>
    cases h with
    | head _ _ h => cases h
    | tail _ h =>
      cases h with
      | head _ _ h => exact ⟨_, h, rfl⟩
      | tail _ h => cases h

/-- In an array node its own flag can be flipped or one in its elements. -/
theorem flipped_of_array {isUnion : Bool}
    (h : FlagFlipped (.object [("kind", .string "array"), ("isUnion", .bool isUnion), ("elements", v)]) j) :
    j = .object [("kind", .string "array"), ("isUnion", .bool !isUnion), ("elements", v)] ∨
      ∃ w, FlagFlipped v w ∧ j = .object [("kind", .string "array"), ("isUnion", .bool isUnion), ("elements", w)] := by
  cases h with
  | here => exact Or.inl rfl
  | member h =>
    cases h with
    | head _ _ h => cases h
    | tail _ h =>
      cases h with
      | head _ _ h => cases h
      | tail _ h =>
        cases h with
        | head _ _ h => exact Or.inr ⟨_, h, rfl⟩
        | tail _ h => cases h

theorem flipped_of_elements {xs : List Json} (h : FlagFlipped (.array xs) j) :
    ∃ ys, ElementFlipped xs ys ∧ j = .array ys := by
  cases h with
  | element h => exact ⟨_, h, rfl⟩

/-- A node stays an object. -/
theorem flipped_object {node : Node} (h : FlagFlipped node.toJson j) : ∃ ms, j = .object ms := by
  obtain ⟨ms, hms⟩ := node.toJson_eq_object
  rw [hms] at h
  cases h with
  | here | member => exact ⟨_, rfl⟩

/-- So do nodes in a list. -/
theorem flipped_objects {nodes : List Node} {ys : List Json} (h : ElementFlipped (nodes.map toJson) ys) :
    ∀ y ∈ ys, ∃ ms, y = .object ms := by
  induction nodes generalizing ys with
  | nil => cases h
  | cons node nodes ih =>
    cases h with
    | head _ h => exact List.forall_mem_cons.mpr ⟨flipped_object h, toJson_objects nodes⟩
    | tail _ h => exact List.forall_mem_cons.mpr ⟨node.toJson_eq_object, ih h⟩

/-- There is no flag in the values of an enum. -/
theorem not_flipped_value (value : EnumValue) : ¬FlagFlipped value.toJson j := by
  intro h
  cases value with
  | name text => cases h
  | keyed key text =>
    obtain ⟨w, h, -⟩ := flipped_of_member h
    cases h

end Flipped

/-- Nothing is read where the flag of an array is flipped. -/
theorem ofJsonWithin?_flipped {n : Nat} {node : Node} {j : Json} (h : FlagFlipped node.toJson j) (inside : Bool) :
    ofJsonWithin? n inside j = none := by
  induction n generalizing node j inside with
  | zero => rfl
  | succ n ih =>
    have hnodes : ∀ {nodes : List Node} {ys : List Json}, ElementFlipped (nodes.map toJson) ys →
        ys.mapM (ofJsonWithin? n true) = none := by
      intro nodes ys hflipped
      obtain ⟨x, hx, y, hy, hxy⟩ := hflipped.exists_flipped
      obtain ⟨node, -, rfl⟩ := List.mem_map.mp hx
      exact mapM_eq_none_iff.mpr ⟨y, hy, ih hxy true⟩
    cases node with
    | primitive kind literal =>
      cases literal with
      | none => exact absurd h not_flipped_text
      | some text =>
        obtain ⟨w, h, -⟩ := flipped_of_member h
        cases h
    | array element =>
      obtain ⟨ms, hms⟩ := element.toJson_eq_object
      rw [toJson] at h
      rcases flipped_of_array h with rfl | ⟨w, hw, rfl⟩
      · rw [ofJsonWithin?_array, hms, readElements?_object]
        cases ofJsonWithin? n true (.object ms) <;> rfl
      · obtain ⟨ns, rfl⟩ := flipped_object hw
        rw [ofJsonWithin?_array, readElements?_object, ih hw true]
        rfl
    | unionArray members =>
      rw [toJson, listToJson_eq_map] at h
      rcases flipped_of_array h with rfl | ⟨w, hw, rfl⟩
      · rw [ofJsonWithin?_array, readElements?_objects (toJson_objects members)]
        cases (members.map toJson).mapM (ofJsonWithin? n true) <;> rfl
      · obtain ⟨ys, hys, rfl⟩ := flipped_of_elements hw
        rw [ofJsonWithin?_array, readElements?_objects (flipped_objects hys), hnodes hys]
        rfl
    | object properties =>
      rw [toJson, propertiesToJson_eq_map] at h
      obtain ⟨w, hw, rfl⟩ := flipped_of_member h
      obtain ⟨ys, hys, rfl⟩ := flipped_of_elements hw
      obtain ⟨x, hx, y, hy, hxy⟩ := hys.exists_flipped
      obtain ⟨p, -, rfl⟩ := List.mem_map.mp hx
      obtain ⟨z, hz, rfl⟩ := flipped_of_member hxy
      have hproperty : readProperty? (ofJsonWithin? n true) (.object [("key", .string p.1), ("node", z)]) = none := by
        rw [readProperty?_object, ih hz true]
        rfl
      rw [ofJsonWithin?_properties, mapM_eq_none_iff.mpr ⟨_, hy, hproperty⟩]
      rfl
    | union variants =>
      rw [toJson, listToJson_eq_map] at h
      obtain ⟨w, hw, rfl⟩ := flipped_of_member h
      obtain ⟨ys, hys, rfl⟩ := flipped_of_elements hw
      rw [ofJsonWithin?_variants, hnodes hys]
      rfl
    | enum values =>
      obtain ⟨w, hw, rfl⟩ := flipped_of_member h
      obtain ⟨ys, hys, rfl⟩ := flipped_of_elements hw
      obtain ⟨x, hx, y, -, hxy⟩ := hys.exists_flipped
      obtain ⟨value, -, rfl⟩ := List.mem_map.mp hx
      exact absurd hxy (not_flipped_value value)

/-- **What a node is written as** is read as that node. When the flag of any one array in it is flipped, nothing is
read. -/
theorem ofJson?_toJson_and_flipped (node : Node) :
    ofJson? node.toJson = some node ∧ ∀ j, FlagFlipped node.toJson j → ofJson? j = none :=
  ⟨node.ofJson?_toJson, fun _ h => ofJsonWithin?_flipped h false⟩

/-- An array of arrays of texts and numbers, in which the flag of the inner array is flipped. -/
theorem ofJson?_toJson_and_flipped_nested :
    let members : List Node := [.primitive .string none, .primitive .number none]
    let flipped : Json := .object [("kind", .string "array"), ("isUnion", .bool false),
      ("elements", .object [("kind", .string "array"), ("isUnion", .bool false),
        ("elements", .array [.object [("kind", .string "string")], .object [("kind", .string "number")]])])]
    FlagFlipped (Node.array (.unionArray members)).toJson flipped ∧
      ofJson? (Node.array (.unionArray members)).toJson = some (.array (.unionArray members)) ∧
        ofJson? flipped = none := by
  intro members flipped
  have hflipped : FlagFlipped (Node.array (.unionArray members)).toJson flipped :=
    .member (.tail _ (.tail _ (.head _ _ (.here true _))))
  have hread := ofJson?_toJson_and_flipped (.array (.unionArray members))
  exact ⟨hflipped, hread.1, hread.2 flipped hflipped⟩

end Node

end AppBundler
