import TabCompletion.Json.Basic

/-!
Reading JSON text. Every reader takes the rest of the input and returns a value with what is left;
`fuel` bounds the number of steps and the length of the input is always enough.
-/

namespace TabCompletion.Json

def skipSpace (t : Text) : Text :=
  t.dropWhile fun u => u == 0x20 || u == 0x09 || u == 0x0A || u == 0x0D

def hex4? : Text → Option (CodeUnit × Text)
  | a :: b :: c :: d :: rest => (Number.natInBase? 16 [a, b, c, d]).map fun n => (UInt16.ofNat n, rest)
  | _ => none

/-- The rest of a string after its opening quote; `read` holds what was read, last unit first. -/
def stringBody? (fuel : Nat) (read : Text) (t : Text) : Option (Text × Text) :=
  match fuel with
  | 0 => none
  | fuel + 1 =>
      match t with
      | [] => none
      | u :: rest =>
          if u == '"' then some (read.reverse, rest)
          else if u != '\\' then stringBody? fuel (u :: read) rest
          else match rest with
            | [] => none
            | e :: rest =>
                if e == 'u' then (hex4? rest).bind fun (v, rest) => stringBody? fuel (v :: read) rest
                else if e == 'n' then stringBody? fuel (0x0A :: read) rest
                else if e == 't' then stringBody? fuel (0x09 :: read) rest
                else if e == 'r' then stringBody? fuel (0x0D :: read) rest
                else if e == 'b' then stringBody? fuel (0x08 :: read) rest
                else if e == 'f' then stringBody? fuel (0x0C :: read) rest
                else if e == '"' || e == '\\' || e == '/' then stringBody? fuel (e :: read) rest
                else none

def isNumberUnit (u : CodeUnit) : Bool :=
  Text.isDigit u || u == '-' || u == '+' || u == '.' || u == 'e' || u == 'E'

def word? (word t : Text) : Option Text :=
  if word.isPrefixOf t then some (t.drop word.length) else none

mutual

def value? (fuel : Nat) (t : Text) : Option (Json × Text) :=
  match fuel with
  | 0 => none
  | fuel + 1 =>
      match skipSpace t with
      | [] => none
      | u :: rest =>
          if u == '"' then
            (stringBody? (rest.length + 1) [] rest).map fun (s, rest) => (.text s, rest)
          else if u == '[' then
            match skipSpace rest with
            | v :: more => if v == ']' then some (.array [], more) else arrayBody? fuel [] rest
            | [] => none
          else if u == 0x7B then
            match skipSpace rest with
            | v :: more => if v == 0x7D then some (.object [], more) else objectBody? fuel [] rest
            | [] => none
          else if u == 't' then (word? "rue" rest).map fun rest => (.bool true, rest)
          else if u == 'f' then (word? "alse" rest).map fun rest => (.bool false, rest)
          else if u == 'n' then (word? "ull" rest).map fun rest => (.null, rest)
          else
            let body := (u :: rest).takeWhile isNumberUnit
            (Number.signed? body).map fun n => (.number n, (u :: rest).dropWhile isNumberUnit)

def arrayBody? (fuel : Nat) (read : List Json) (t : Text) : Option (Json × Text) :=
  match fuel with
  | 0 => none
  | fuel + 1 =>
      match value? fuel t with
      | none => none
      | some (item, rest) =>
          match skipSpace rest with
          | u :: rest =>
              if u == ',' then arrayBody? fuel (item :: read) rest
              else if u == ']' then some (.array (item :: read).reverse, rest)
              else none
          | [] => none

def objectBody? (fuel : Nat) (read : List (Text × Json)) (t : Text) : Option (Json × Text) :=
  match fuel with
  | 0 => none
  | fuel + 1 =>
      match skipSpace t with
      | [] => none
      | u :: rest =>
          if u != '"' then none
          else match stringBody? (rest.length + 1) [] rest with
            | none => none
            | some (name, rest) =>
                match skipSpace rest with
                | [] => none
                | u :: rest =>
                    if u != ':' then none
                    else match value? fuel rest with
                      | none => none
                      | some (value, rest) =>
                          match skipSpace rest with
                          | u :: rest =>
                              if u == ',' then objectBody? fuel ((name, value) :: read) rest
                              else if u == 0x7D then
                                some (ofFields ((name, value) :: read).reverse, rest)
                              else none
                          | [] => none

end

def read? (t : Text) : Option Json :=
  match value? (t.length + 1) t with
  | some (j, rest) => if (skipSpace rest).isEmpty then some j else none
  | none => none

end TabCompletion.Json
