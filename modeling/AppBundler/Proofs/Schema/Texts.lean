import AppBundler.Proofs.Source.Tree.Rewording
import AppBundler.Proofs.Text.Returns
import AppBundler.Schema.Node
/-!
# Texts in a schema

A schema keeps two kinds of texts as they are written: values of enum members and defaults. It may be reworded, that is, a
function is applied to all of them. Schemas that are the same without the carriage returns before line feeds are the same
when none of their texts goes over several lines.
-/

namespace AppBundler

variable {f : String → String}

/-! ## What is reworded in a schema -/

/-- The text of an initializer is kept. -/
instance : Reworded EnumValue where
  reword f
    | .name value => .name value
    | .keyed key value => .keyed key (f value)
  reword_id v := by cases v <;> rfl

namespace Node

mutual

/-- The node with a function applied to the values of enums in it. -/
def reworded (f : String → String) : Node → Node
  | .primitive kind literal => .primitive kind literal
  | .array element => .array (element.reworded f)
  | .unionArray members => .unionArray (rewordedAll f members)
  | .object properties => .object (rewordedProps f properties)
  | .union variants => .union (rewordedAll f variants)
  | .enum values => .enum (Reworded.reword f values)

/-- Some nodes with a function applied in each. -/
def rewordedAll (f : String → String) : List Node → List Node
  | [] => []
  | node :: r => node.reworded f :: rewordedAll f r

/-- The properties of an object with a function applied in each. -/
def rewordedProps (f : String → String) : List (String × Node) → List (String × Node)
  | [] => []
  | p :: r => rewordedProp f p :: rewordedProps f r

/-- A property with a function applied in its node. -/
def rewordedProp (f : String → String) : String × Node → String × Node
  | (key, node) => (key, node.reworded f)

end

mutual

theorem reworded_id : ∀ node : Node, node.reworded id = node
  | .primitive _ _ => rfl
  | .array element => by rw [reworded, reworded_id element]
  | .unionArray members => by rw [reworded, rewordedAll_id members]
  | .object properties => by rw [reworded, rewordedProps_id properties]
  | .union variants => by rw [reworded, rewordedAll_id variants]
  | .enum values => by rw [reworded, Reworded.reword_id]

theorem rewordedAll_id : ∀ nodes : List Node, rewordedAll id nodes = nodes
  | [] => rfl
  | node :: r => by rw [rewordedAll, reworded_id node, rewordedAll_id r]

theorem rewordedProps_id : ∀ props : List (String × Node), rewordedProps id props = props
  | [] => rfl
  | p :: r => by rw [rewordedProps, rewordedProp_id p, rewordedProps_id r]

theorem rewordedProp_id : ∀ p : String × Node, rewordedProp id p = p
  | (_, node) => by rw [rewordedProp, reworded_id node]

end

end Node

instance : Reworded Node where
  reword := Node.reworded
  reword_id := Node.reworded_id

instance : Reworded Input where
  reword f i := { i with node := reword f i.node, defaultValue := reword f i.defaultValue }
  reword_id i := by simp

instance : Reworded Action where
  reword f a := { a with inputs := reword f a.inputs }
  reword_id a := by simp

instance : Reworded ScriptSchema where
  reword f s := ⟨reword f s.handler, reword f s.actions⟩
  reword_id s := by simp

/-- Errors keep no texts but names. -/
instance {ε α : Type} [Reworded α] : Reworded (Except ε α) where
  reword f := Except.map (reword f)
  reword_id x := by cases x <;> simp [Except.map]

section Nodes

variable (f)

theorem Node.rewordedAll_eq (nodes : List Node) : rewordedAll f nodes = Reworded.reword f nodes := by
  induction nodes with
  | nil => rfl
  | cons node nodes ih => rw [rewordedAll, ih, reword_cons]; rfl

theorem Node.rewordedProps_eq (props : List (String × Node)) : rewordedProps f props = Reworded.reword f props := by
  induction props with
  | nil => rfl
  | cons p props ih => rw [rewordedProps, rewordedProp, ih]; rfl

@[simp]
theorem reword_unionArray (members : List Node) : reword f (Node.unionArray members) = .unionArray (reword f members) :=
  congrArg Node.unionArray (Node.rewordedAll_eq f members)

@[simp]
theorem reword_nodeObject (props : List (String × Node)) : reword f (Node.object props) = .object (reword f props) :=
  congrArg Node.object (Node.rewordedProps_eq f props)

@[simp]
theorem reword_nodeUnion (variants : List Node) : reword f (Node.union variants) = .union (reword f variants) :=
  congrArg Node.union (Node.rewordedAll_eq f variants)

@[simp]
theorem reword_ok {ε α : Type} [Reworded α] (a : α) : reword f (.ok a : Except ε α) = .ok (reword f a) := rfl

@[simp]
theorem reword_error {ε α : Type} [Reworded α] (e : ε) : reword f (.error e : Except ε α) = .error e := rfl

end Nodes

/-! ## The texts themselves -/

/-- What keeps texts, with the list of them. -/
class KeepsTexts (α : Type) [Reworded α] where
  /-- The texts that are kept, in their order. -/
  texts : α → List String
  texts_reword : ∀ (f : String → String) (x : α), texts (reword f x) = (texts x).map f
  reword_congr : ∀ {f g : String → String} {x : α}, (∀ t ∈ texts x, f t = g t) → reword f x = reword g x

export KeepsTexts (texts)

section Containers

variable {α : Type} [Reworded α] [KeepsTexts α]

instance : KeepsTexts (List α) where
  texts l := l.flatMap texts
  texts_reword f l := by
    change List.flatMap texts (l.map (reword f)) = (l.flatMap texts).map f
    rw [List.flatMap_map, List.map_flatMap]
    exact congrArg (List.flatMap · l) (funext fun x => KeepsTexts.texts_reword f x)
  reword_congr h := List.map_congr_left fun x hx =>
    KeepsTexts.reword_congr fun t ht => h t (List.mem_flatMap.mpr ⟨x, hx, ht⟩)

instance : KeepsTexts (Option α) where
  texts o := o.elim [] texts
  texts_reword f o := by
    cases o with
    | none => rfl
    | some x => exact KeepsTexts.texts_reword f x
  reword_congr {_ _ o} h := by
    cases o with
    | none => rfl
    | some x => exact congrArg some (KeepsTexts.reword_congr h)

instance : KeepsTexts (String × α) where
  texts p := texts p.2
  texts_reword f p := KeepsTexts.texts_reword f p.2
  reword_congr {_ _ p} h := congrArg (Prod.mk p.1) (KeepsTexts.reword_congr h)

end Containers

instance : KeepsTexts EnumValue where
  texts
    | .name _ => []
    | .keyed _ value => [value]
  texts_reword f v := by cases v <;> rfl
  reword_congr {f g v} h := by
    cases v with
    | name _ => rfl
    | keyed key value => exact congrArg (EnumValue.keyed key) (h value List.mem_cons_self)

instance : KeepsTexts Json where
  texts
    | .string s => [s]
    | _ => []
  texts_reword f v := by cases v <;> rfl
  reword_congr {f g v} h := by
    cases v with
    | string s => exact congrArg Json.string (h s List.mem_cons_self)
    | _ => rfl

namespace Node

mutual

/-- The values of enums in the node. -/
def keptTexts : Node → List String
  | .primitive _ _ => []
  | .array element => element.keptTexts
  | .unionArray members => keptTextsAll members
  | .object properties => keptTextsProps properties
  | .union variants => keptTextsAll variants
  | .enum values => texts values

/-- The values of enums in some nodes. -/
def keptTextsAll : List Node → List String
  | [] => []
  | node :: r => node.keptTexts ++ keptTextsAll r

/-- The values of enums in the properties of an object. -/
def keptTextsProps : List (String × Node) → List String
  | [] => []
  | p :: r => keptTextsProp p ++ keptTextsProps r

/-- The values of enums in a property. -/
def keptTextsProp : String × Node → List String
  | (_, node) => node.keptTexts

end

mutual

theorem keptTexts_reworded (f : String → String) : ∀ node : Node, (node.reworded f).keptTexts = node.keptTexts.map f
  | .primitive _ _ => rfl
  | .array element => keptTexts_reworded f element
  | .unionArray members => keptTextsAll_reworded f members
  | .object properties => keptTextsProps_reworded f properties
  | .union variants => keptTextsAll_reworded f variants
  | .enum values => KeepsTexts.texts_reword f values

theorem keptTextsAll_reworded (f : String → String) :
    ∀ nodes : List Node, keptTextsAll (rewordedAll f nodes) = (keptTextsAll nodes).map f
  | [] => rfl
  | node :: r => by
    rw [rewordedAll, keptTextsAll, keptTextsAll, keptTexts_reworded f node, keptTextsAll_reworded f r, List.map_append]

theorem keptTextsProps_reworded (f : String → String) :
    ∀ props : List (String × Node), keptTextsProps (rewordedProps f props) = (keptTextsProps props).map f
  | [] => rfl
  | p :: r => by
    rw [rewordedProps, keptTextsProps, keptTextsProps, keptTextsProp_reworded f p, keptTextsProps_reworded f r,
      List.map_append]

theorem keptTextsProp_reworded (f : String → String) :
    ∀ p : String × Node, keptTextsProp (rewordedProp f p) = (keptTextsProp p).map f
  | (_, node) => keptTexts_reworded f node

end

variable {f g : String → String}

mutual

theorem reworded_congr : ∀ node : Node, (∀ t ∈ node.keptTexts, f t = g t) → node.reworded f = node.reworded g
  | .primitive _ _, _ => rfl
  | .array element, h => congrArg array (reworded_congr element h)
  | .unionArray members, h => congrArg unionArray (rewordedAll_congr members h)
  | .object properties, h => congrArg object (rewordedProps_congr properties h)
  | .union variants, h => congrArg union (rewordedAll_congr variants h)
  | .enum _, h => congrArg enum (KeepsTexts.reword_congr h)

theorem rewordedAll_congr : ∀ nodes : List Node, (∀ t ∈ keptTextsAll nodes, f t = g t) → rewordedAll f nodes = rewordedAll g nodes
  | [], _ => rfl
  | node :: r, h => by
    obtain ⟨hnode, hr⟩ := List.forall_mem_append.mp h
    rw [rewordedAll, rewordedAll, reworded_congr node hnode, rewordedAll_congr r hr]

theorem rewordedProps_congr :
    ∀ props : List (String × Node), (∀ t ∈ keptTextsProps props, f t = g t) → rewordedProps f props = rewordedProps g props
  | [], _ => rfl
  | p :: r, h => by
    obtain ⟨hp, hr⟩ := List.forall_mem_append.mp h
    rw [rewordedProps, rewordedProps, rewordedProp_congr p hp, rewordedProps_congr r hr]

theorem rewordedProp_congr :
    ∀ p : String × Node, (∀ t ∈ keptTextsProp p, f t = g t) → rewordedProp f p = rewordedProp g p
  | (key, node), h => congrArg (Prod.mk key) (reworded_congr node h)

end

end Node

instance : KeepsTexts Node where
  texts := Node.keptTexts
  texts_reword := Node.keptTexts_reworded
  reword_congr {_ _ node} := Node.reworded_congr node

instance : KeepsTexts Input where
  texts i := texts i.node ++ texts i.defaultValue
  texts_reword f i := by
    rw [List.map_append, ← KeepsTexts.texts_reword, ← KeepsTexts.texts_reword]
    rfl
  reword_congr {f g i} h := by
    obtain ⟨hnode, hvalue⟩ := List.forall_mem_append.mp h
    have hinput (f : String → String) : reword f i = { i with node := reword f i.node, defaultValue := reword f i.defaultValue } :=
      rfl
    rw [hinput, hinput, KeepsTexts.reword_congr hnode, KeepsTexts.reword_congr hvalue]

instance : KeepsTexts Action where
  texts a := texts a.inputs
  texts_reword f a := KeepsTexts.texts_reword f a.inputs
  reword_congr {_ _ a} h := congrArg (Action.mk a.name) (KeepsTexts.reword_congr h)

instance : KeepsTexts ScriptSchema where
  texts s := texts s.handler ++ texts s.actions
  texts_reword f s := by
    rw [List.map_append, ← KeepsTexts.texts_reword, ← KeepsTexts.texts_reword]
    rfl
  reword_congr {f g s} h := by
    obtain ⟨hhandler, hactions⟩ := List.forall_mem_append.mp h
    exact congrArg₂ ScriptSchema.mk (KeepsTexts.reword_congr hhandler) (KeepsTexts.reword_congr hactions)

end AppBundler
