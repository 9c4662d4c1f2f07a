import Dockge.Data.Program

namespace Dockge.Mcp.FileWrite

open Data

/-! Writing a compose or env file in place, with the bytes that were there put back when that fails.

Up to the last look at the content somebody else may change the file before any operation, and the path may lead
elsewhere at any time.
-/

abbrev Bytes := List UInt8

inductive WriteError where
  | invalidFile
  | fileChanged
  | writeFailed
  | recoveryFailed
  /-- An operation of its own, of the write or of its undo -/
  | operation (undo : Bool)
  | guard
  /-- Closing the file, after the write or in place of its error -/
  | close
  | closeAfter (hidden : WriteError)
deriving DecidableEq, Repr

/-- What happened since the operation before -/
structure Meanwhile where
  /-- What somebody else made of the file -/
  bytes : Option Bytes := none
  /-- The path leads somewhere else. -/
  moved : Bool := false

structure World where
  /-- What the file behind the descriptor holds -/
  bytes : Bytes
  /-- What it would hold had nothing been written -/
  original : Bytes
  /-- The path leads somewhere else. -/
  moved : Bool := false
  isFile : Bool := true
  meanwhile : List Meanwhile := []
  /-- How many bytes each call of `write` writes, at most; all of them where nothing is said -/
  counts : List Nat := []

abbrev FileTask := Program World WriteError

namespace World

/-- The file as somebody else left it -/
def theirs (world : World) : World :=
  match world.meanwhile with
  | [] => world
  | change :: rest =>
      { world with
        bytes := change.bytes.getD world.bytes
        original := change.bytes.getD world.original
        moved := change.moved
        meanwhile := rest }

/-- The path alone as somebody else left it -/
def elsewhere (world : World) : World :=
  match world.meanwhile with
  | [] => world
  | change :: rest => { world with moved := change.moved, meanwhile := rest }

def overwrite (file chunk : Bytes) (offset : Nat) : Bytes :=
  file.take offset ++ List.replicate (offset - file.length) 0 ++ chunk ++ file.drop (offset + chunk.length)

/-- What one call of `write` covers -/
def chunk (world : World) (bytes : Bytes) (offset : Nat) : Bytes :=
  let rest := bytes.drop offset
  rest.take (world.counts.headD rest.length)

def write (world : World) (bytes : Bytes) (offset : Nat) : World :=
  { world with bytes := overwrite world.bytes (world.chunk bytes offset) offset, counts := world.counts.tail }

def truncate (world : World) (length : Nat) : World :=
  { world with bytes := world.bytes.take length ++ List.replicate (length - world.bytes.length) 0 }

end World

/-- An operation that looks at the file or the path, after others were there -/
def looks {α : Type} (others : World → World) (error : WriteError) (value : World → α) : FileTask α :=
  Program.operation fun fate world =>
    match fate with
    | .ok => (.done (value (others world)), others world)
    | .fail => (.threw error, others world)
    | .late => (.threw error, others world)
    | .kill => (.killed, others world)

/-- An operation on the file, which nobody else changes any more -/
def alone {α : Type} (error : WriteError) (value : World → α) (effect : World → World) : FileTask α :=
  Program.operation fun fate world =>
    match fate with
    | .ok => (.done (value world), effect world)
    | .fail => (.threw error, world)
    | .late => (.threw error, effect world)
    | .kill => (.killed, world)

/-- `try … finally { await handle.close() }` -/
def closing {α : Type} (closed : WriteError) (closedAfter : WriteError → WriteError) (body : FileTask α) : FileTask α := do
  match ← Program.attempt body with
  | .ok value =>
      alone closed (fun _ => ()) id
      pure value
  | .error error =>
      alone (closedAfter error) (fun _ => ()) id
      Program.fail error

def refuseIf (condition : Bool) (error : WriteError) : FileTask Unit :=
  Program.onlyIf condition (Program.fail error)

/-- What is used of the language for text -/
structure TextCodec (Text : Type) where
  encode : Text → Bytes
  decode : Bytes → Text
  includesNul : Text → Bool

variable {Text Hash : Type} [DecidableEq Text] [DecidableEq Hash]

def fileLimit : Nat := 1024 * 1024

structure McpFile (Text Hash : Type) where
  content : Text
  hash : Hash

def step {α : Type} (value : World → α) : FileTask α := looks World.theirs (.operation false) value

/-- `known`: the name is that of a compose or env file. -/
def readMcpFile (codec : TextCodec Text) (digest : Bytes → Hash) (known : Bool) : FileTask (McpFile Text Hash) := do
  refuseIf (!known) .invalidFile
  -- The path is resolved, and the file opened.
  step fun _ => ()
  step fun _ => ()
  closing (.operation false) (fun _ => .operation false) do
    let (isFile, size) ← step fun world => (world.isFile, world.bytes.length)
    refuseIf (!isFile || fileLimit < size) .invalidFile
    let exact ← step fun world => world.bytes.take (size + 1)
    refuseIf (exact.length ≠ size) .fileChanged
    let content := codec.decode exact
    refuseIf (codec.encode content ≠ exact || codec.includesNul content) .invalidFile
    pure { content, hash := digest exact }

def assertSameInode (others : World → World) : FileTask Unit := do
  let moved ← looks others (.operation false) World.moved
  refuseIf moved .fileChanged

def assertContent (digest : Bytes → Hash) (size : Nat) (expectedHash : Hash) : FileTask Bytes := do
  let current ← step fun world => world.bytes.take (size + 1)
  refuseIf (current.length ≠ size || digest current ≠ expectedHash) .fileChanged
  pure current

/-- The loop over the rest of the bytes -/
def writeFrom (bytes : Bytes) (failure : WriteError) (undo : Bool) (offset : Nat) : FileTask Unit :=
  if offset < bytes.length then do
    let bytesWritten ← alone (.operation undo) (fun world => (world.chunk bytes offset).length) (·.write bytes offset)
    if bytesWritten = 0 then Program.fail failure
    else writeFrom bytes failure undo (offset + bytesWritten)
  else pure ()
termination_by bytes.length - offset

def writeAll (bytes : Bytes) (failure : WriteError) (undo : Bool) : FileTask Unit := do
  writeFrom bytes failure undo 0
  alone (.operation undo) (fun _ => ()) (·.truncate bytes.length)
  alone (.operation undo) (fun _ => ()) id

def writeMcpFile (codec : TextCodec Text) (digest : Bytes → Hash) (known : Bool) (expectedHash : Hash) (content : Text) :
    FileTask Unit := do
  refuseIf (fileLimit < (codec.encode content).length || codec.includesNul content ||
    codec.decode (codec.encode content) ≠ content) .invalidFile
  let original ← readMcpFile codec digest known
  refuseIf (original.hash ≠ expectedHash) .fileChanged
  if original.content = content then pure ()
  else do
    step fun _ => ()
    step fun _ => ()
    closing .close .closeAfter do
      let (isFile, size) ← step fun world => (world.isFile, world.bytes.length)
      refuseIf (!isFile || fileLimit < size) .invalidFile
      let before ← assertContent digest size expectedHash
      assertSameInode World.theirs
      looks World.theirs .guard fun _ => ()
      let _ ← assertContent digest size expectedHash
      assertSameInode World.elsewhere
      let after := codec.encode content
      Program.orElse (do
          writeAll after .writeFailed false
          assertSameInode World.elsewhere)
        fun error => do
          writeAll before .recoveryFailed true
          Program.fail error

end Dockge.Mcp.FileWrite
