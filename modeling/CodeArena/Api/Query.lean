import CodeArena.Engine.Config
import CodeArena.Submissions.Model

/-!
# Query parameters

The parameters of a request as Express hands them to the services, and what the services
read off them: numbers, pages, and names of an enumeration.

## Honest boundary

Express parses a query with Node's `querystring`, so that a parameter is a string, or an
array of strings where its name occurs more than once.  Numbers are exact.  What other code
makes of a parameter is collected in `Externals`, and nothing is assumed of it.
-/

namespace CodeArena.Api

open CodeArena.Lib.Utf
open CodeArena.Engine (trim isWhitespace toUpperCase)
open CodeArena.Submissions (ObjectId Time JsError)

/-- A query parameter. -/
inductive Param where
  | absent
  | one (s : JsString)
  /-- A name that occurs more than once. -/
  | many (ss : List JsString)
deriving DecidableEq, Repr

/-- What the services leave to MongoDB, to Mongoose and to the runtime. -/
structure Externals where
  /-- `mongoose.Types.ObjectId.isValid`. -/
  isValidObjectId : Param → Bool
  /-- The cast of a filter on an id; `none` where it throws. -/
  castObjectId : Param → Option ObjectId
  /-- `{ $regex: term, $options: 'i' }`; `none` where the term is no regular expression. -/
  regex : JsString → Option (JsString → Bool)
  /-- `toLowerCase`. -/
  toLowerCase : JsString → JsString
  /-- `Number(((accepted / total) * 100).toFixed(2))`, in hundredths. -/
  percentage : Nat → Nat → Nat
  /-- `date.setDate(date.getDate() - n)`. -/
  daysBefore : Nat → Time → Time
  /-- `date.setFullYear(date.getFullYear() - 1)`. -/
  yearBefore : Time → Time

/-- Externals for examples. -/
def Externals.sample : Externals where
  isValidObjectId _ := false
  castObjectId _ := none
  regex _ := none
  toLowerCase s := s
  percentage accepted total := accepted * 10000 / total
  daysBefore n t := t - n * 86400000
  yearBefore t := t - 365 * 86400000

/-- `TypeError`, thrown where a method is not there. -/
def typeError : JsError := ⟨"TypeError", "is not a function", none, none, false⟩

/-- What Mongoose throws where it cannot cast the value of a filter. -/
def castError : JsError := ⟨"CastError", "Cast failed", none, none, false⟩

/-- What MongoDB answers to a filter that it cannot run. -/
def serverError : JsError := ⟨"MongoServerError", "Invalid filter", none, none, false⟩

namespace Param

/-- A parameter as a condition. -/
def truthy : Param → Bool
  | absent | one [] => false
  | _ => true

/-- `a || b`. -/
def or (a b : Param) : Param := if a.truthy then a else b

/-- `String(p)`. -/
def text : Param → JsString
  | absent => js "undefined"
  | one s => s
  | many ss => [0x2C].intercalate ss

end Param

/-! ## Numbers -/

/-- A decimal digit. -/
def isDigit (u : CodeUnit) : Bool := 0x30 ≤ u ∧ u ≤ 0x39

/-- The number that digits stand for. -/
def digitsValue (s : JsString) : Nat := s.foldl (fun n u ↦ 10 * n + (u.toNat - 0x30)) 0

/-- The digits that a text starts with, as a number. -/
def leadingNumber (s : JsString) : Option Nat :=
  match s.takeWhile isDigit with
  | [] => none
  | ds => some (digitsValue ds)

/-- `parseInt(s, 10)`; `none` for `NaN`. -/
def parseInt (s : JsString) : Option Int :=
  match s.dropWhile isWhitespace with
  | 0x2D :: s => (leadingNumber s).map fun n ↦ -(n : Int)
  | 0x2B :: s => (leadingNumber s).map fun n ↦ (n : Int)
  | s => (leadingNumber s).map fun n ↦ (n : Int)

/-- `Math.max(parseInt(p, 10) || fallback, 1)`. -/
def Param.atLeastOne (p : Param) (fallback : Nat) : Nat :=
  match parseInt p.text with
  | none | some 0 => max fallback 1
  | some n => max n.toNat 1

/-! ## Pages -/

/-- The page that a request asks for. -/
structure Paging where
  page : Nat
  limit : Nat
deriving DecidableEq, Repr

/-- `page` and `limit` from their parameters. -/
def paging (page limit : Param) : Paging := ⟨page.atLeastOne 1, min (limit.atLeastOne 20) 100⟩

/-- `.skip(skip).limit(limit)`. -/
def Paging.slice {α : Type} (p : Paging) (xs : List α) : List α :=
  (xs.drop ((p.page - 1) * p.limit)).take p.limit

/-- `pagination` of a result. -/
structure Pagination where
  page : Nat
  limit : Nat
  total : Nat
  totalPages : Nat
deriving DecidableEq, Repr

/-- `pagination` with `Math.ceil(total / limit) || 1`. -/
def Paging.of (p : Paging) (total : Nat) : Pagination :=
  ⟨p.page, p.limit, total, max ((total + p.limit - 1) / p.limit) 1⟩

theorem Paging.mem_of_mem_slice {α : Type} {p : Paging} {xs : List α} {x : α}
    (h : x ∈ p.slice xs) : x ∈ xs :=
  List.mem_of_mem_drop (List.mem_of_mem_take h)

end CodeArena.Api
