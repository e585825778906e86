import BoxClient.Http.Head
/-!
One side of an open connection, as data: what will arrive, in the pieces in which it will, and how
the peer takes what is written. Reading consumes arrivals; writing, flushing and shutting down leave
a record.
-/
namespace BoxClient.Http

inductive Arrival where
  | bytes (bs : Bytes)
  /-- Reading fails here. -/
  | failure (reason : String)
  deriving DecidableEq, Repr

/-- The receiving side: bytes that arrived and were not taken yet, and what arrives later. After the
last arrival the stream has ended. -/
structure Inlet where
  buffer : Bytes := []
  arrivals : List Arrival := []
  deriving DecidableEq, Repr

/-- The bytes up to and including the first line feed, but at most `limit`; the bytes after them;
and whether a line feed or the limit was met. -/
def cutLine : (limit : Nat) → Bytes → Bytes × Bytes × Bool
  | 0, bs => ([], bs, true)
  | _ + 1, [] => ([], [], false)
  | n + 1, b :: r =>
    if b = 0x0a then ([b], r, true)
    else
      let (line, rest, met) := cutLine n r
      (b :: line, rest, met)

namespace Inlet

/-- Takes the bytes of a line, at most `limit`, from the buffer and as many arrivals as that needs.
Fewer than `limit` bytes without a line feed mean that the stream ended. -/
def takeLine (limit : Nat) (buffer : Bytes) : List Arrival → Except String (Bytes × Inlet)
  | [] =>
    let (line, rest, _) := cutLine limit buffer
    .ok (line, ⟨rest, []⟩)
  | a :: arrivals =>
    let (line, rest, met) := cutLine limit buffer
    if met then .ok (line, ⟨rest, a :: arrivals⟩)
    else
      match a with
      | .failure reason => .error reason
      | .bytes bs => do
        let (more, inlet) ← takeLine (limit - line.length) bs arrivals
        .ok (line ++ more, inlet)

def line (i : Inlet) (limit : Nat) : Except String (Bytes × Inlet) :=
  takeLine limit i.buffer i.arrivals

/-- The bytes of all arrivals, unless one of them is a failure. -/
def gather : List Arrival → Except String Bytes
  | [] => .ok []
  | .failure reason :: _ => .error reason
  | .bytes bs :: arrivals => (bs ++ ·) <$> gather arrivals

def rest (i : Inlet) : Except String Bytes := (i.buffer ++ ·) <$> gather i.arrivals

end Inlet

structure Connection where
  inlet : Inlet := {}
  /-- How many more bytes the peer takes, if there is a limit. -/
  room : Option Nat := none
  /-- How a write fails when there is no room left. -/
  writeFailure : String := "write zero"
  /-- How every flush fails, if it does. -/
  flushFailure : Option String := none
  /-- How every shutdown fails, if it does. -/
  shutdownFailure : Option String := none
  written : Bytes := []
  flushes : Nat := 0
  shutdowns : Nat := 0

namespace Connection

def outcome : Option String → Except String Unit
  | none => .ok ()
  | some reason => .error reason

/-- Writes everything, or as much as there is room for and fails. -/
def write (c : Connection) (bs : Bytes) : Except String Unit × Connection :=
  match c.room with
  | none => (.ok (), { c with written := c.written ++ bs })
  | some n =>
    let taken := bs.take n
    let c := { c with room := some (n - taken.length), written := c.written ++ taken }
    if taken.length < bs.length then (.error c.writeFailure, c) else (.ok (), c)

def flush (c : Connection) : Except String Unit × Connection :=
  (outcome c.flushFailure, { c with flushes := c.flushes + 1 })

def shutdown (c : Connection) : Except String Unit × Connection :=
  (outcome c.shutdownFailure, { c with shutdowns := c.shutdowns + 1 })

end Connection
end BoxClient.Http
