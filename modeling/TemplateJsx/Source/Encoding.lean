import TemplateJsx.Diagnostic.Fault

/-!
# Encodings

How the bytes of a file become text. Bytes that are no text in the chosen encoding are refused.
-/

set_option autoImplicit false

namespace TemplateJsx.Source

inductive Encoding where
  /-- UTF-8, where a byte order mark is a character like any other. -/
  | utf8
  /-- UTF-8 after an optional byte order mark. -/
  | markedUtf8
  /-- UTF-16 in the byte order that its mark tells. -/
  | utf16
  | latin1
  | ascii
deriving DecidableEq, Repr

def Encoding.ofName? : String → Option Encoding
  | "utf-8" => some .utf8
  | "utf-8-sig" => some .markedUtf8
  | "utf-16" => some .utf16
  | "latin-1" => some .latin1
  | "ascii" => some .ascii
  | _ => none

def utf8Mark : List UInt8 := [0xEF, 0xBB, 0xBF]

def decodeUtf8 (bytes : ByteArray) : Except FileFault String :=
  match String.fromUTF8? bytes with
  | some text => .ok text
  | none => .error .undecodable

/-- Reads UTF-8 after an optional mark. A file that holds nothing but the beginning of a mark is
empty. -/
def decodeMarkedUtf8 (bytes : ByteArray) : Except FileFault String :=
  if bytes.size < 3 ∧ utf8Mark.take bytes.size = bytes.toList then .ok ""
  else if utf8Mark = bytes.toList.take 3 then decodeUtf8 (bytes.extract 3 bytes.size)
  else decodeUtf8 bytes

def codeUnits? (littleEndian : Bool) : List UInt8 → Option (List Nat)
  | [] => some []
  | [_] => none
  | first :: second :: bytes =>
      match codeUnits? littleEndian bytes with
      | none => none
      | some units =>
          if littleEndian then some ((second.toNat * 256 + first.toNat) :: units)
          else some ((first.toNat * 256 + second.toNat) :: units)

/-- The characters of code units, in which surrogates come in pairs only. -/
def unitsToChars? : List Nat → Option (List Char)
  | [] => some []
  | unit :: rest =>
      if Json.isLowSurrogate unit then none
      else if Json.isHighSurrogate unit then
        match rest with
        | [] => none
        | low :: rest =>
            if Json.isLowSurrogate low then
              (unitsToChars? rest).map (Char.ofNat (Json.joinSurrogates unit low) :: ·)
            else none
      else (unitsToChars? rest).map (Char.ofNat unit :: ·)

def decodeOrdered (littleEndian : Bool) (bytes : List UInt8) : Except FileFault String :=
  match (codeUnits? littleEndian bytes).bind unitsToChars? with
  | some cs => .ok (String.ofList cs)
  | none => .error .undecodable

/-- Reads UTF-16 in the byte order that its mark tells. Only an empty file needs no mark. -/
def decodeUtf16 (bytes : List UInt8) : Except FileFault String :=
  match bytes with
  | 0xFF :: 0xFE :: rest => decodeOrdered true rest
  | 0xFE :: 0xFF :: rest => decodeOrdered false rest
  | _ =>
      match decodeOrdered true bytes with
      | .error fault => .error fault
      | .ok text => if bytes.isEmpty then .ok text else .error .unmarked

def decodeLatin1 (bytes : List UInt8) : String :=
  String.ofList (bytes.map fun byte => Char.ofNat byte.toNat)

def Encoding.decode (encoding : Encoding) (bytes : ByteArray) : Except FileFault String :=
  match encoding with
  | .utf8 => decodeUtf8 bytes
  | .markedUtf8 => decodeMarkedUtf8 bytes
  | .utf16 => decodeUtf16 bytes.toList
  | .latin1 => .ok (decodeLatin1 bytes.toList)
  | .ascii =>
      if bytes.toList.all (· < 0x80) then .ok (decodeLatin1 bytes.toList)
      else .error .undecodable

end TemplateJsx.Source
