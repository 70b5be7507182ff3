import CacheHierarchy.Json.Stream

set_option autoImplicit false

/-! # Schemas

A schema describes once how values of a type are written in JSON, and gives the two decoders
of that format: one for a value already in memory (`Json.Decode`), one for text decoded as it
is read (`Json.Stream`). Records, enumerations and the other shapes are built from the same
pieces in both, so the two decoders accept the same documents and differ only in the order in
which they meet errors and in the places they give them.
-/

namespace CacheHierarchy.Json

/-- How values of type `α` are written in JSON. -/
structure Schema (α : Type) where
  /-- Decode a value already in memory, its members visited in the given order. -/
  ofValue : Order → Json → Decode α
  /-- Decode from the text as it is read. -/
  ofText : TextDecoder α

namespace Schema

def u64 : Schema Nat := ⟨fun _ => Json.u64, Stream.u64⟩

def u32 : Schema Nat := ⟨fun _ => Json.u32, Stream.u32⟩

def usize : Schema Nat := ⟨fun _ => Json.usize, Stream.usize⟩

def str : Schema String := ⟨fun _ => Json.str, Stream.str⟩

def boolean : Schema Bool := ⟨fun _ => Json.boolean, Stream.boolean⟩

/-- An array of values of one schema. -/
def list {α : Type} (s : Schema α) : Schema (List α) :=
  ⟨fun o => Json.list (s.ofValue o), Stream.list s.ofText⟩

def optional {α : Type} (s : Schema α) : Schema (Option α) :=
  ⟨fun o => Json.optional (s.ofValue o), Stream.optional s.ofText⟩

/-- An enumeration of variants without data, by name. -/
def unitVariant {α : Type} (variants : List (String × α)) : Schema α :=
  ⟨fun o => Json.unitVariant o variants, Stream.unitVariant variants⟩

/-- One field of a record of type `α`. -/
structure Field (α : Type) where
  name : String
  /-- A field that may be left out keeps the value of the starting record. -/
  optional : Bool
  putValue : Order → Json → α → Decode α
  putText : α → TextDecoder α

/-- The field `name`, written with the schema `s` and stored by `set`. -/
def field {α β : Type} (name : String) (optional : Bool) (s : Schema β) (set : α → β → α) :
    Field α where
  name := name
  optional := optional
  putValue o v a := (set a ·) <$> s.ofValue o v
  putText a depth c := do
    let (b, d) ← s.ofText depth c
    pure (set a b, d)

/-- A record with the given fields, starting from `start`; `expecting` names it in messages
(`struct Name`). -/
def record {α : Type} (expecting : String) (fields : List (Field α)) (start : α) : Schema α :=
  ⟨fun o => Json.record o expecting (fields.map fun f => ⟨f.name, f.optional, f.putValue o⟩) start,
   Stream.record expecting (fields.map fun f => ⟨f.name, f.optional, f.putText⟩) start⟩

/-- An enumeration tagged inside its value by the member `tag`; each variant decodes the
rest of the value, buffered. -/
def tagged {α : Type} (enumName tag : String) (variants : List (String × (Json → Decode α))) :
    Schema α :=
  ⟨fun o => Json.tagged o enumName tag variants, Stream.tagged enumName tag variants⟩

end Schema

end CacheHierarchy.Json
