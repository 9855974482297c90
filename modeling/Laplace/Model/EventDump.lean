import Mathlib.Data.Nat.Notation

/-! # Event dumps

A harness writes what it captured to a file of the events directory, named after its target with the `::` of the
path replaced. Whether the directory can be made and the file written is up to the system, call by call, and no
failure is reported.
-/

namespace Laplace.Model.Dump

/-- A name or a text, by its characters. -/
abbrev Name := List Char

/-- `str::replace("::", "__")` -/
def replace : Name → Name
  | ':' :: ':' :: rest => '_' :: '_' :: replace rest
  | char :: rest => char :: replace rest
  | [] => []

/-- `concat!(module_path!(), "::", #func_name)`, the segments of the module path first. -/
def targetName : List Name → Name
  | [] => []
  | [segment] => segment
  | segment :: rest => segment ++ ':' :: ':' :: targetName rest

def filename (target : Name) : Name := replace target ++ ['.', 'j', 's', 'o', 'n']

structure Envelope (Event : Type) where
  schemaVersion : String
  target : Name
  expected : String
  determinism : String
  captureMode : String
  events : List Event
deriving DecidableEq, Repr

/-- What the system does with a call. -/
inductive Io where
  | done
  /-- `create_dir_all` fails. -/
  | noDirectory
  /-- The file cannot be opened. -/
  | refused
  /-- The file is truncated and the text not written in full. -/
  | torn
deriving DecidableEq, Repr

/-- The arguments of a call, with the system's answer to it. -/
structure Call (Event : Type) where
  target : Name
  expected : String
  determinism : String
  captureMode : String
  events : List Event
  io : Io
deriving DecidableEq, Repr

inductive Contents (Event : Type) where
  | envelope (envelope : Envelope Event)
  | fragment
deriving DecidableEq, Repr

/-- The files of the directory by name. -/
abbrev Files (Event : Type) := Name → Option (Contents Event)

variable {Event : Type}

def Call.envelope (call : Call Event) : Envelope Event where
  schemaVersion := "2"
  target := call.target
  expected := call.expected
  determinism := call.determinism
  captureMode := call.captureMode
  events := call.events

def Files.write (files : Files Event) (name : Name) (contents : Contents Event) : Files Event :=
  fun other => if other = name then some contents else files other

/-- `dir` is `LAPLACE_VERIFY_EVENTS_DIR`. -/
def dumpEventsWithMode (dir : Option Name) (files : Files Event) (call : Call Event) : Files Event :=
  match dir, call.io with
  | none, _ | some _, .noDirectory | some _, .refused => files
  | some _, .torn => files.write (filename call.target) .fragment
  | some _, .done => files.write (filename call.target) (.envelope call.envelope)

/-- The calls one after another, in a directory that is empty. -/
def dumpAll (dir : Option Name) (calls : List (Call Event)) : Files Event :=
  calls.foldl (dumpEventsWithMode dir) fun _ => none

end Laplace.Model.Dump
