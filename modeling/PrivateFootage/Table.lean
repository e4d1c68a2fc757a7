/-!
# Comma-separated records

Records of fields in the quoted comma-separated format, read from bytes. A field that starts with a
quotation mark runs to the closing one; a doubled mark inside stands for one, and what follows the
closing mark belongs to the field. A mark inside an unquoted field is an ordinary character. Records
end at a line feed, a carriage return, or the two in a row; empty lines are skipped; a quoted field
that is never closed runs to the end. A byte order mark at the start is dropped.

Each record carries the line on which reading it started: one more than the line feeds taken before,
where neither the line feed of a pair nor the line feeds of skipped lines count for the record that
follows them directly.
-/

namespace PrivateFootage.Table

/-- A record with the line it is reported under. -/
structure Record where
  line : Nat
  fields : List (List UInt8)
deriving DecidableEq, Repr

/-- Where reading stands between two bytes. -/
inductive Place where
  /-- Before the first field of a record. -/
  | start
  /-- Before a field that follows a comma. -/
  | fieldStart
  | unquoted
  | quoted
  /-- After a mark inside a quoted field. -/
  | afterMark
deriving DecidableEq, Repr

/-- What has been read: the field and the record under way and the finished records are held in
reverse order. -/
structure Reading where
  place : Place
  field : List UInt8
  fields : List (List UInt8)
  /-- Line feeds taken so far. -/
  feeds : Nat
  /-- Line feeds taken when the last record ended. -/
  feedsBefore : Nat
  records : List Record

/-- Nothing read yet. -/
def Reading.initial : Reading := ⟨.start, [], [], 0, 0, []⟩

/-- End the field under way. -/
def Reading.endField (reading : Reading) : Reading :=
  { reading with
    place := .fieldStart
    field := []
    fields := reading.field.reverse :: reading.fields }

/-- End the field and the record under way. -/
def Reading.endRecord (reading : Reading) : Reading :=
  let fields := (reading.field.reverse :: reading.fields).reverse
  { reading with
    place := .start
    field := []
    fields := []
    feedsBefore := reading.feeds
    records := ⟨reading.feedsBefore + 1, fields⟩ :: reading.records }

/-- Add a byte to the field under way. -/
def Reading.extend (reading : Reading) (place : Place) (byte : UInt8) : Reading :=
  { reading with place := place, field := byte :: reading.field }

/-- The quotation mark. -/
def mark : UInt8 := 0x22

/-- The comma between fields. -/
def comma : UInt8 := 0x2C

/-- Whether a byte ends a record. -/
def endsRecord (byte : UInt8) : Bool :=
  byte = 0x0A || byte = 0x0D

/-- Take one byte outside quotation marks. -/
def Reading.stepUnquoted (reading : Reading) (byte : UInt8) : Reading :=
  if byte = comma then reading.endField
  else if endsRecord byte then reading.endRecord
  else reading.extend .unquoted byte

/-- Take one byte, already counted if it is a line feed. -/
def Reading.stepCounted (reading : Reading) (byte : UInt8) : Reading :=
  match reading.place with
  | .start =>
    if endsRecord byte then reading
    else if byte = mark then { reading with place := .quoted }
    else reading.stepUnquoted byte
  | .fieldStart =>
    if byte = mark then { reading with place := .quoted } else reading.stepUnquoted byte
  | .unquoted => reading.stepUnquoted byte
  | .quoted =>
    if byte = mark then { reading with place := .afterMark } else reading.extend .quoted byte
  | .afterMark =>
    if byte = mark then reading.extend .quoted byte else reading.stepUnquoted byte

/-- Take one byte. -/
def Reading.step (reading : Reading) (byte : UInt8) : Reading :=
  let counted := if byte = 0x0A then { reading with feeds := reading.feeds + 1 } else reading
  counted.stepCounted byte

/-- The records read, in order, after ending one that is under way. -/
def Reading.finish (reading : Reading) : List Record :=
  match reading.place with
  | .start => reading.records.reverse
  | _ => reading.endRecord.records.reverse

/-- Drop a byte order mark. -/
def dropOrderMark : List UInt8 → List UInt8
  | 0xEF :: 0xBB :: 0xBF :: rest => rest
  | bytes => bytes

/-- The records of a file. -/
def records (bytes : List UInt8) : List Record :=
  ((dropOrderMark bytes).foldl Reading.step .initial).finish

end PrivateFootage.Table
