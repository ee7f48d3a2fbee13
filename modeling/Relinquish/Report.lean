/-!
Reports: trees of plain data, with a compact text by which they can be ordered.
-/

namespace Relinquish

inductive Report where
  | null
  | bool (b : Bool)
  | int (n : Int)
  | text (s : String)
  | list (items : List Report)
  | record (fields : List (String × Report))
  deriving Inhabited

namespace Report

def hexDigit (n : Nat) : Char :=
  if n < 10 then Char.ofNat (0x30 + n) else Char.ofNat (0x61 + (n - 10))

/-- How a character is written between quotes: only quotes, backslashes and the control characters
below the blank are escaped. -/
def escape (c : Char) : List Char :=
  if c = '"' then ['\\', '"']
  else if c = '\\' then ['\\', '\\']
  else if c = '\n' then ['\\', 'n']
  else if c = '\r' then ['\\', 'r']
  else if c = '\t' then ['\\', 't']
  else if c = '\x08' then ['\\', 'b']
  else if c = '\x0c' then ['\\', 'f']
  else if c.toNat < 0x20 then
    ['\\', 'u', '0', '0', hexDigit (c.toNat / 16), hexDigit (c.toNat % 16)]
  else [c]

def quote (s : String) : String :=
  "\"" ++ String.ofList (s.toList.flatMap escape) ++ "\""

/-- Inserts a field where its name belongs; of two fields of one name the earlier stays. -/
def insertField (field : String × String) : List (String × String) → List (String × String)
  | [] => [field]
  | other :: rest =>
      if field.1 < other.1 then field :: other :: rest
      else if field.1 = other.1 then field :: rest
      else other :: insertField field rest

def sortFields (fields : List (String × String)) : List (String × String) :=
  fields.foldr insertField []

def braced (fields : List (String × String)) : String :=
  "\x7b" ++ String.intercalate "," (fields.map fun (name, value) => quote name ++ ":" ++ value)
    ++ "\x7d"

mutual

def compact : Report → String
  | null => "null"
  | bool b => if b then "true" else "false"
  | int n => toString n
  | text s => quote s
  | list items => "[" ++ String.intercalate "," (compactAll items) ++ "]"
  | record fields => braced (sortFields (compactFields fields))

def compactAll : List Report → List String
  | [] => []
  | item :: rest => item.compact :: compactAll rest

def compactFields : List (String × Report) → List (String × String)
  | [] => []
  | (name, value) :: rest => (name, value.compact) :: compactFields rest

end

def sort (reports : List Report) : List Report :=
  ((reports.map fun report => (report.compact, report)).mergeSort fun a b => a.1 ≤ b.1).map (·.2)

end Report

end Relinquish
