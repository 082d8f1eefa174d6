import TabCompletion.Json.Basic

/-!
Compact JSON text: no space, control characters and halves without a partner escaped, numbers in
their shortest decimal form.
-/

namespace TabCompletion.Json

def hexDigit (n : Nat) : CodeUnit := UInt16.ofNat (if n < 10 then 0x30 + n else 0x57 + n)

def unicodeEscape (u : CodeUnit) : Text :=
  let n := u.toNat
  "\\u" ++ [hexDigit (n / 4096 % 16), hexDigit (n / 256 % 16), hexDigit (n / 16 % 16), hexDigit (n % 16)]

def escapeUnit (u : CodeUnit) : Text :=
  if u == '"' then "\\\""
  else if u == '\\' then "\\\\"
  else if u == 0x08 then "\\b"
  else if u == 0x0C then "\\f"
  else if u == 0x0A then "\\n"
  else if u == 0x0D then "\\r"
  else if u == 0x09 then "\\t"
  else if u < 0x20 then unicodeEscape u
  else [u]

def escape : Text → Text
  | [] => []
  | [u] => if Text.isHighHalf u || Text.isLowHalf u then unicodeEscape u else escapeUnit u
  | u :: v :: rest =>
      if Text.isHighHalf u && Text.isLowHalf v then u :: v :: escape rest
      else if Text.isHighHalf u || Text.isLowHalf u then unicodeEscape u ++ escape (v :: rest)
      else escapeUnit u ++ escape (v :: rest)

def quoted (t : Text) : Text := "\"" ++ escape t ++ "\""

/-- Numbers without a decimal form are written `null`. -/
def writeNumber (n : Number) : Text := if n.isFinite then n.toText else "null"

mutual

def write : Json → Text
  | .null => "null"
  | .bool b => if b then "true" else "false"
  | .number n => writeNumber n
  | .text t => quoted t
  | .array items => "[" ++ Text.join "," (writeItems items) ++ "]"
  | .object fields => "\x7b" ++ Text.join "," (writeFields fields) ++ "\x7d"

def writeItems : List Json → List Text
  | [] => []
  | item :: rest => write item :: writeItems rest

def writeFields : List (Text × Json) → List Text
  | [] => []
  | (name, value) :: rest => (quoted name ++ ":" ++ write value) :: writeFields rest

end

end TabCompletion.Json
