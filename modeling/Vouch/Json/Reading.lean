import Vouch.Json.Basic
import Vouch.Json.Written
import Vouch.Text.Decimal
import Vouch.Text.Base64

/-! Reading values of known shape out of a document.

A `Place` is a part of a document together with the number of containers that may
still open inside it. A record is written as an object with its fields by name, or
as an array with its fields in order; unknown names are passed over, a known name
may stand once. A name out of a list is written as a string, or as an object with
that one member, which is null. -/
namespace Vouch.Json

/-- A part of a document. `room` bounds how deep containers may nest in it. -/
structure Place where
  room : Nat
  written : Written

/-- Containers nest at most this deep. -/
def greatestDepth : Nat := 127

mutual

/-- The value of a part of a document, however it is shaped. -/
def json? (room : Nat) : Written → Option Json
  | .null => some .null
  | .bool b => some (.bool b)
  | .number l => l.value?.map .number
  | .string pieces => (pieceText? pieces).map .string
  | .array items =>
    match room with
    | 0 => none
    | room + 1 => (itemsJson? room items).map .array
  | .object fields =>
    match room with
    | 0 => none
    | room + 1 => (fieldsJson? room fields).map object

def itemsJson? (room : Nat) : List Written → Option (List Json)
  | [] => some []
  | w :: rest => do
    let j ← json? room w
    let js ← itemsJson? room rest
    return j :: js

def fieldsJson? (room : Nat) : List (List Piece × Written) → Option (List (String × Json))
  | [] => some []
  | (pieces, w) :: rest => do
    let name ← pieceText? pieces
    let j ← json? room w
    let fields ← fieldsJson? room rest
    return (name, j) :: fields

end

namespace Place

def ofText? (s : String) : Option Place :=
  (Written.ofText? s).map (⟨greatestDepth, ·⟩)

def json? (p : Place) : Option Json :=
  Vouch.Json.json? p.room p.written

def isNull (p : Place) : Bool :=
  match p.written with
  | .null => true
  | _ => false

def string? (p : Place) : Option String :=
  match p.written with
  | .string pieces => pieceText? pieces
  | _ => none

def bool? (p : Place) : Option Bool :=
  match p.written with
  | .bool b => some b
  | _ => none

/-- An integer of 64 bits written as a JSON number. -/
def natural64? (p : Place) : Option Nat :=
  match p.written with
  | .number l =>
    match l.value? with
    | some (.natural n) => some n
    | _ => none
  | _ => none

/-- An integer written as a decimal string. -/
def decimal? (p : Place) : Option Nat :=
  p.string?.bind Decimal.read?

/-- An integer of 64 bits written as a decimal string. -/
def decimal64? (p : Place) : Option Nat :=
  p.string?.bind Decimal.read64?

/-- Bytes written in base64. -/
def bytes? (p : Place) : Option (List UInt8) :=
  p.string?.bind Base64.decode?

/-- The items of an array. -/
def items? (p : Place) : Option (List Place) :=
  match p.room, p.written with
  | room + 1, .array items => some (items.map (⟨room, ·⟩))
  | _, _ => none

def decimals? (p : Place) : Option (List Nat) := do
  (← p.items?).mapM decimal?

/-- The members of an object, in textual order. -/
def fields? (p : Place) : Option (List (String × Place)) :=
  match p.room, p.written with
  | room + 1, .object fields =>
    fields.mapM fun (pieces, w) => (pieceText? pieces).map (·, ⟨room, w⟩)
  | _, _ => none

/-- A table: an object of which every member is read alike. -/
def keyed? {α : Type} (read : Place → Option α) (p : Place) : Option (Keyed α) := do
  let entries ← (← p.fields?).mapM fun (name, q) => (read q).map (name, ·)
  return Keyed.ofList entries

/-- The fields of a record in the order of their names; `none` for one that is missing. -/
def record? (names : List String) (p : Place) : Option (List (Option Place)) :=
  match p.written with
  | .array _ => do
    let items ← p.items?
    if items.length ≤ names.length then
      some (items.map some ++ List.replicate (names.length - items.length) none)
    else none
  | _ => do
    let fields ← p.fields?
    names.mapM fun name =>
      match fields.filter (·.1 == name) with
      | [] => some none
      | [(_, q)] => some (some q)
      | _ => none

/-- One name out of a list. -/
def tag? (p : Place) : Option String :=
  match p.written with
  | .object _ => do
    let [(name, q)] ← p.fields? | none
    if q.isNull then some name else none
  | _ => p.string?

/-- The one of a list that has the tag. -/
def oneOf? {α : Type} (tag : α → String) (all : List α) (p : Place) : Option α :=
  p.tag?.bind fun name => all.find? (tag · == name)

/-- A part that may be null or missing. -/
def optional? {α : Type} (read : Place → Option α) : Option Place → Option (Option α)
  | none => some none
  | some p => if p.isNull then some none else (read p).map some

end Place

/-- Reads a whole text with a reader of places. -/
def read? {α : Type} (reader : Place → Option α) (s : String) : Option α :=
  (Place.ofText? s).bind reader

end Vouch.Json
