import Ebml.Error

/-!
# Byte sources

A byte source hands out octets in order and counts them. It ends in one of two ways: cleanly,
or at a failure offset where every further read fails. The octets from the failure offset on
are kept, since they were never handed out. Reading runs in `ReadM`, where an error keeps the
source as it was when the error arose: octets consumed by a short read stay consumed.
-/

namespace Ebml

/-- A byte source. -/
structure Source where
  /-- The octets that can still be read. -/
  ahead : Bytes
  /-- The octets from the failure offset on, which are never handed out. -/
  held : Bytes := []
  /-- Whether reading past `ahead` fails, rather than reporting the end of the stream. -/
  breaks : Bool := false
  /-- The number of octets handed out so far. -/
  position : Nat := 0
  deriving DecidableEq, Inhabited

namespace Source

/-- A source over a list of octets that ends cleanly. -/
def ofBytes (data : Bytes) : Source := { ahead := data }

/-- A source over `data` whose reads fail from offset `n` on, when `n` is inside `data`. -/
def failingAt (data : Bytes) (n : Nat) : Source :=
  if n < data.length then { ahead := data.take n, held := data.drop n, breaks := true }
  else ofBytes data

/-- The octets not yet handed out. -/
def unread (s : Source) : Bytes := s.ahead ++ s.held

/-- The error a read gets at the end of what can be read, for a read that needs octets. -/
def endError (s : Source) (short : IoFault) : Error :=
  if s.breaks then .io .sourceFailed else .io short

end Source

/-- Reading from a byte source; an error keeps the source as it was when the error arose. -/
abbrev ReadM := ExceptT Error (StateM Source)

namespace ReadM

/-- Runs a reading on a source, giving the result and the source afterwards. -/
def run {α : Type} (r : ReadM α) (s : Source) : Except Error α × Source :=
  (ExceptT.run r).run s

/-- Runs a reading on a list of octets that ends cleanly. -/
def runOn {α : Type} (r : ReadM α) (data : Bytes) : Except Error α × Source :=
  r.run (Source.ofBytes data)

/-- Fails with an error. -/
def fail {α : Type} (e : Error) : ReadM α := throw e

/-- Takes the result of a pure check. -/
def ofExcept {α : Type} : Except Error α → ReadM α
  | .ok a => pure a
  | .error e => throw e

/-- The next octet, or `none` at a clean end. -/
def byte? : ReadM (Option UInt8) := do
  let s ← get
  match s.ahead with
  | b :: rest =>
    set { s with ahead := rest, position := s.position + 1 }
    pure (some b)
  | [] => if s.breaks then throw (.io .sourceFailed) else pure none

/-- Up to `n` octets: as many as there are, and an error if that is fewer than `n`. The
octets before the end are consumed either way. -/
def take (n : Nat) (short : IoFault) : ReadM Bytes := do
  let s ← get
  let got := s.ahead.take n
  set { s with ahead := s.ahead.drop n, position := s.position + got.length }
  if got.length < n then throw (s.endError short) else pure got

/-- Exactly `n` octets. -/
def exact (n : Nat) : ReadM Bytes := take n .shortRead

/-- The next octet. -/
def byte : ReadM UInt8 := do
  match ← exact 1 with
  | [b] => pure b
  | _ => throw (.io .shortRead)

/-- Skips `n` octets of an element's data. -/
def skip (n : Nat) : ReadM Unit := do
  let _ ← take n .elementCut
  pure ()

/-- The number of octets that can still be read. -/
def remaining : ReadM Nat := do
  pure (← get).ahead.length

/-- The number of octets handed out so far. -/
def position : ReadM Nat := do
  pure (← get).position

end ReadM

end Ebml
