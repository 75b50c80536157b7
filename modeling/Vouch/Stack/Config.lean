import Vouch.Document

/-! The configuration of a proving stack.

A configuration says where the artifacts of the circuits are, how many public signals
are allowed, and which signature is proven by default. Every part can be left out. -/
namespace Vouch.Stack

open Json (Place)

structure Config where
  /-- The directory of the artifacts. -/
  directory : String
  /-- How many public signals a circuit may have. -/
  signalLimit : Nat
  /-- The signature that is proven unless another one is asked for. -/
  signatureIndex : Nat
deriving DecidableEq

/-- A file that belongs to the circuit of a schema. -/
inductive Artifact where
  /-- The program that computes witnesses. -/
  | wasm
  /-- The key that proves. -/
  | zkey
  | verifyingKey
deriving DecidableEq, Repr

def Artifact.ending : Artifact → String
  | .wasm => "wasm"
  | .zkey => "zkey"
  | .verifyingKey => "vkey.json"

namespace Config

def standard : Config where
  directory := "artifacts"
  signalLimit := greatestSignalCount
  signatureIndex := 0

/-- The limit lies between one and what a verifier takes. -/
def check (c : Config) : Result Unit :=
  if 1 ≤ c.signalLimit ∧ c.signalLimit ≤ greatestSignalCount then .ok ()
  else .error (.document (.signalLimit c.signalLimit))

/-! ### Paths -/

/-- The path of a file in a directory. An empty directory is the current one. -/
def joinPath (directory file : String) : String :=
  if directory.isEmpty || directory.endsWith "/" then directory ++ file
  else directory ++ "/" ++ file

def artifactPath (c : Config) (schemaId : Nat) (a : Artifact) : String :=
  joinPath c.directory s!"circuit_{schemaId}.{a.ending}"

/-! ### Documents -/

/-- A part that is read if it is there. -/
def part {α : Type} (standard : α) (read : Place → Option α) : Option Place → Option α
  | none => some standard
  | some p => read p

def read (p : Place) : Option Config := do
  let [directory, limit, index] ←
    p.record? ["artifacts_dir", "max_public_signals", "default_signature_index"] | none
  return { directory := ← part standard.directory Place.string? directory
           signalLimit := ← part standard.signalLimit Place.natural64? limit
           signatureIndex := ← part standard.signatureIndex Place.natural64? index }

def toJson (c : Config) : Json :=
  .object [("artifacts_dir", .string c.directory), ("max_public_signals", .natural c.signalLimit),
    ("default_signature_index", .natural c.signatureIndex)]

/-- A configuration from its text, checked. -/
def ofText (s : String) : Result Config := do
  let c ← readDocument read s
  c.check
  return c

end Config

/-! ### Files -/

/-- The contents of the file at a path, if it can be read. -/
abbrev Files := String → Option String

def readFile (files : Files) (path : String) : Result String :=
  match files path with
  | some contents => .ok contents
  | none => .error (.unreadable path)

def Config.ofFile (files : Files) (path : String) : Result Config := do
  ofText (← readFile files path)

end Vouch.Stack
