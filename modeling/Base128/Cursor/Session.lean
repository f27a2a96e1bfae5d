import Base128.Cursor

/-! # Sessions

A session is the use of one cursor over time: reads of every kind, in any order, with
copies kept aside and taken up again.
-/

namespace Base128

/-- What can be asked of a session: direct reads, items one by one, all of them or some,
the bytes behind the cursor, and to keep a copy of it or take up the last one. -/
inductive Request where
  | read
  | readField
  | readNarrow (width : Width)
  | next
  | rest
  | take (count : Nat)
  | unread
  | save
  | restore
deriving DecidableEq, Repr

/-- The answer to a request. `item none` says that the items are over, and `kept none`
that there was no copy to take up. -/
inductive Reply where
  | value (result : Except Fault UInt64)
  | field (result : Except Fault Field)
  | item (result : Option Item)
  | items (result : List Item)
  | bytes (result : Bytes)
  | kept (result : Option Nat)

/-- A cursor in use, and the copies kept aside, the latest first. -/
structure Session where
  cursor : Cursor
  kept : List Cursor := []

namespace Session

/-- Where a direct read failed, the cursor stays. -/
def settle {α : Type} (session : Session) (outcome : Except Fault (α × Cursor)) :
    Except Fault α × Session :=
  match outcome with
  | .error fault => (.error fault, session)
  | .ok (result, cursor) => (.ok result, { session with cursor })

def perform (session : Session) : Request → Reply × Session
  | .read =>
    let (result, session) := session.settle session.cursor.read
    (.value result, session)
  | .readField =>
    let (result, session) := session.settle session.cursor.readField
    (.field result, session)
  | .readNarrow width =>
    let (result, session) := session.settle (session.cursor.readNarrow width)
    (.value result, session)
  | .next =>
    match session.cursor.next with
    | none => (.item none, session)
    | some (item, cursor) => (.item (some item), { session with cursor })
  | .rest =>
    let (items, cursor) := session.cursor.exhaust
    (.items items, { session with cursor })
  | .take count =>
    let (items, cursor) := session.cursor.take count
    (.items items, { session with cursor })
  | .unread => (.bytes session.cursor.unread, session)
  | .save =>
    (.kept (some (session.kept.length + 1)), { session with kept := session.cursor :: session.kept })
  | .restore =>
    match session.kept with
    | [] => (.kept none, session)
    | cursor :: kept => (.kept (some kept.length), { cursor, kept })

/-- Each reply comes with the session after it. -/
def run (session : Session) : List Request → List (Reply × Session)
  | [] => []
  | request :: requests =>
    let (reply, after) := session.perform request
    (reply, after) :: after.run requests

end Session

end Base128
