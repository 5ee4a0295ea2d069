import DroneParking.Library.Bytes
import Mathlib.Data.List.Basic

/-!
# Objects of fixed shape in bytes

An object is a tree of named fields and of items in order. A layout has kinds of
words at its leaves; what is read by it has the same shape, with words in their
places, and the bytes are those of the words from left to right.
-/
namespace Library

inductive Document (α : Type) where
  | leaf (a : α)
  | empty
  | field (name : String) (value rest : Document α)
  | item (value rest : Document α)
  deriving DecidableEq, Repr

namespace Document

variable {α β : Type}

def object (fields : List (String × Document α)) : Document α :=
  fields.foldr (fun f rest => .field f.1 f.2 rest) .empty

def array (items : List (Document α)) : Document α := items.foldr .item .empty

def map (f : α → β) : Document α → Document β
  | .leaf a => .leaf (f a)
  | .empty => .empty
  | .field name value rest => .field name (value.map f) (rest.map f)
  | .item value rest => .item (value.map f) (rest.map f)

def leaves : Document α → List α
  | .leaf a => [a]
  | .empty => []
  | .field _ value rest | .item value rest => value.leaves ++ rest.leaves

/-- The subtree under a path of names. -/
def get : Document α → List String → Option (Document α)
  | t, [] => some t
  | .field name value rest, k :: ks => if name = k then value.get ks else rest.get (k :: ks)
  | .leaf _, _ :: _ | .empty, _ :: _ | .item _ _, _ :: _ => none

/-- The same, with an empty object where there is nothing. -/
def pick (t : Document α) (path : List String) : Document α := (t.get path).getD .empty

def leafAt (t : Document α) (path : List String) : Option α :=
  match t.get path with
  | some (.leaf a) => some a
  | _ => none

/-- Compute each leaf, from left to right. -/
def traverse {m : Type → Type} [Monad m] (f : α → m β) : Document α → m (Document β)
  | .leaf a => do return .leaf (← f a)
  | .empty => return .empty
  | .field name value rest => do
      let value ← value.traverse f
      let rest ← rest.traverse f
      return .field name value rest
  | .item value rest => do
      let value ← value.traverse f
      let rest ← rest.traverse f
      return .item value rest

end Document

section Words
variable {κ ν : Type} {width : κ → ℕ}

/-- A number in a place that has room for it. -/
structure Word (width : κ → ℕ) where
  kind : κ
  value : ℕ
  bound : value < 256 ^ width kind

namespace Word

def bytes (w : Word width) : Bytes := toLittle (width w.kind) w.value

@[simp] theorem length_bytes (w : Word width) : w.bytes.length = width w.kind :=
  length_toLittle _ _

theorem little_bytes (w : Word width) : little w.bytes = w.value := little_toLittle w.bound

/-- The word at the front of a text, short or not. -/
def front (width : κ → ℕ) (kind : κ) (l : Bytes) : Word width where
  kind := kind
  value := little (l.take (width kind))
  bound := (little_lt _).trans_le (Nat.pow_le_pow_right (by decide) (List.length_take_le _ _))

theorem front_bytes (w : Word width) (rest : Bytes) : front width w.kind (w.bytes ++ rest) = w := by
  have taken : (w.bytes ++ rest).take (width w.kind) = w.bytes := List.take_left' w.length_bytes
  have same : little ((w.bytes ++ rest).take (width w.kind)) = w.value := by
    rw [taken, little_bytes]
  obtain ⟨kind, value, bound⟩ := w
  simp only [front, mk.injEq, true_and]
  exact same

theorem bytes_front {kind : κ} {l : Bytes} (h : width kind ≤ l.length) :
    (front width kind l).bytes = l.take (width kind) := by
  have same := toLittle_little (l.take (width kind))
  rwa [List.length_take_of_le h] at same

end Word

namespace Document

/-- How many bytes a layout takes. -/
def size (width : κ → ℕ) : Document κ → ℕ
  | .leaf kind => width kind
  | .empty => 0
  | .field _ value rest | .item value rest => value.size width + rest.size width

def shape (t : Document (Word width)) : Document κ := t.map Word.kind

def bytes (t : Document (Word width)) : Bytes := t.leaves.flatMap Word.bytes

/-- The words that a layout finds in a text. -/
def scan (width : κ → ℕ) : Document κ → Bytes → Document (Word width)
  | .leaf kind, l => .leaf (Word.front width kind l)
  | .empty, _ => .empty
  | .field name value rest, l =>
      .field name (value.scan width l) (rest.scan width (l.drop (value.size width)))
  | .item value rest, l => .item (value.scan width l) (rest.scan width (l.drop (value.size width)))

theorem bytes_pair (a b : List (Word width)) :
    (a ++ b).flatMap Word.bytes = a.flatMap Word.bytes ++ b.flatMap Word.bytes :=
  List.flatMap_append

@[simp] theorem bytes_leaf (w : Word width) : (leaf w).bytes = w.bytes := List.append_nil _

@[simp] theorem bytes_field (name : String) (value rest : Document (Word width)) :
    (field name value rest).bytes = value.bytes ++ rest.bytes := bytes_pair _ _

@[simp] theorem bytes_item (value rest : Document (Word width)) :
    (item value rest).bytes = value.bytes ++ rest.bytes := bytes_pair _ _

theorem shape_field (name : String) (value rest : Document (Word width)) :
    (field name value rest).shape = field name value.shape rest.shape := rfl

theorem shape_item (value rest : Document (Word width)) :
    (item value rest).shape = item value.shape rest.shape := rfl

theorem length_bytes (t : Document (Word width)) : t.bytes.length = t.shape.size width := by
  induction t with
  | leaf w => rw [bytes_leaf, Word.length_bytes]; rfl
  | empty => rfl
  | field name value rest first second =>
      rw [bytes_field, List.length_append, first, second]
      rfl
  | item value rest first second =>
      rw [bytes_item, List.length_append, first, second]
      rfl

theorem shape_scan (layout : Document κ) (l : Bytes) : (layout.scan width l).shape = layout := by
  induction layout generalizing l with
  | leaf kind => rfl
  | empty => rfl
  | field name value rest first second =>
      rw [scan, shape_field, first, second]
  | item value rest first second =>
      rw [scan, shape_item, first, second]

/-- What a layout finds is what was put there. -/
theorem scan_bytes (t : Document (Word width)) (rest : Bytes) :
    t.shape.scan width (t.bytes ++ rest) = t := by
  have drop (s : Document (Word width)) (l : Bytes) :
      (s.bytes ++ l).drop (s.shape.size width) = l := List.drop_left' s.length_bytes
  induction t generalizing rest with
  | leaf w =>
      rw [bytes_leaf]
      exact congrArg leaf (w.front_bytes rest)
  | empty => rfl
  | field name value tail first second =>
      rw [shape_field, bytes_field, List.append_assoc, scan, first, drop, second]
  | item value tail first second =>
      rw [shape_item, bytes_item, List.append_assoc, scan, first, drop, second]

theorem bytes_scan {layout : Document κ} {l : Bytes} (h : layout.size width ≤ l.length) :
    (layout.scan width l).bytes = l.take (layout.size width) := by
  induction layout generalizing l with
  | leaf kind =>
      change (leaf _).bytes = _
      rw [bytes_leaf]
      exact Word.bytes_front h
  | empty => rfl
  | field name value rest first second =>
      have room : value.size width + rest.size width ≤ l.length := h
      change (field name _ _).bytes = _
      rw [bytes_field, first (by omega), second (by rw [List.length_drop]; omega),
        ← List.take_add]
      rfl
  | item value rest first second =>
      have room : value.size width + rest.size width ≤ l.length := h
      change (item _ _).bytes = _
      rw [bytes_item, first (by omega), second (by rw [List.length_drop]; omega),
        ← List.take_add]
      rfl

end Document

/-- A notion of a computation that takes bytes from a text and returns a value. -/
structure Consumption (m : Type → Type) [Monad m] where
  takes : ∀ {α : Type}, m α → Bytes → α → Prop
  pure : ∀ {α : Type} (a : α), takes (pure a) [] a
  bind : ∀ {α β : Type} {x : m α} {f : α → m β} {l l' : Bytes} {a : α} {b : β},
    takes x l a → takes (f a) l' b → takes (x >>= f) (l ++ l') b

/-- Reading by a layout takes the bytes of the words in its places. -/
theorem Consumption.traverse {m : Type → Type} [Monad m] (c : Consumption m) {read : κ → m ν}
    {value : κ → ℕ → ν} (leaf : ∀ w : Word width, c.takes (read w.kind) w.bytes (value w.kind w.value))
    (t : Document (Word width)) :
    c.takes (t.shape.traverse read) t.bytes (t.map fun w => value w.kind w.value) := by
  induction t with
  | leaf w =>
      rw [Document.bytes_leaf, ← List.append_nil w.bytes]
      exact c.bind (leaf w) (c.pure _)
  | empty => exact c.pure _
  | field name first second ih ih' =>
      rw [Document.bytes_field, ← List.append_nil second.bytes]
      exact c.bind ih (c.bind ih' (c.pure _))
  | item first second ih ih' =>
      rw [Document.bytes_item, ← List.append_nil second.bytes]
      exact c.bind ih (c.bind ih' (c.pure _))

end Words
end Library
