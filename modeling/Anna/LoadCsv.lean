import Anna.Config
import Anna.Lib.Records

/-!
# Loading the queries

`LoadCSV` reads a table of numbers from a text, a row from each line that is
not empty, up to a number of lines and a number of entries in a row.
`prepare_queries` loads the queries with it. A file is the text in it; one
that cannot be opened reads like an empty one.
-/

namespace Anna

/-! ## Reading a number -/

/-- `isspace` in the classic locale. -/
def isSpace (c : Char) : Bool := c ∈ [' ', '\t', '\n', '\x0b', '\x0c', '\r']

/-- `strtoull` behind the sign: without a digit the result is 0, and what is too large becomes the largest number. -/
def readDigits (negative : Bool) (text : List Char) : UInt64 :=
  let n := Nat.ofDigitChars 10 (text.takeWhile Char.isDigit) 0
  if 2 ^ 64 ≤ n then -1 else if negative then -UInt64.ofNat n else UInt64.ofNat n

/-- `iss >> formatted`, which leaves `formatted` alone if there is nothing but spaces. -/
def extract (value : List Char) : Option UInt64 :=
  match value.dropWhile isSpace with
  | [] => none
  | '-' :: text => some (readDigits true text)
  | '+' :: text => some (readDigits false text)
  | text => some (readDigits false text)

/-! ## Reading a table -/

/-- The loop over the values of a line; `unset` is what `formatted` holds when it is declared. -/
def readRow (unset : UInt64) (maxCol : Int32) : List (List Char) → List UInt64 → List UInt64
  | [], row => row
  | value :: values, row =>
    if value = [] then readRow unset maxCol values row
    else
      let row := row ++ [(extract value).getD unset]
      if maxCol ≠ -1 ∧ row.length = (uint64OfInt maxCol).toNat then row else readRow unset maxCol values row

/-- The loop over the lines; every line counts, whether a row is read from it or not. -/
def readRows (unset : UInt64) (maxRow maxCol : Int32) :
    List (List Char) → Int → List (List UInt64) → List (List UInt64)
  | [], _, matrix => matrix
  | line :: lines, rowCnt, matrix =>
    if rowCnt < maxRow.toInt then
      if line = [] then readRows unset maxRow maxCol lines (rowCnt + 1) matrix
      else readRows unset maxRow maxCol lines (rowCnt + 1) (matrix ++ [readRow unset maxCol (records ',' line) []])
    else matrix

def loadCSV (unset : UInt64) (rawCsv : List Char) (matrix : List (List UInt64)) (maxRow maxCol : Int32) :
    List (List UInt64) :=
  readRows unset maxRow maxCol (records '\n' rawCsv) 0 matrix

def databasePath : String := "./resource/union/query/"

def queriesPath (databaseName : String) : String := databasePath ++ databaseName ++ "-cluster-256.csv"

def prepareQueries (unset : UInt64) (files : String → List Char) (databaseName : String)
    (queries : List (List UInt64)) (queryNum : UInt64) : List (List UInt64) :=
  loadCSV unset (files (queriesPath databaseName)) queries (intOfUint64 queryNum) (intOfUint64 nprobe)

end Anna
