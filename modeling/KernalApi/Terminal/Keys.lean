import KernalApi.Std.Utf8
import Mathlib.Data.List.Infix

/-!
# Terminal keys

`KeyDecoder` turns the bytes of a terminal into key events, one byte at a time. The
bytes it accepts are a sequence of tokens and an unfinished one.
-/

namespace KernalApi.Terminal

inductive Key
  | character (char : Char)
  | enter
  | escape
  | other
deriving DecidableEq

structure KeyModifiers where
  control : Bool
  alt : Bool
deriving DecidableEq

structure KeyEvent where
  key : Key
  modifiers : KeyModifiers
deriving DecidableEq

/-- The events of keys that no modifier belongs to. -/
def KeyEvent.bare (key : Key) : KeyEvent := ⟨key, ⟨false, false⟩⟩

inductive DecoderState
  | ground
  | escape
  | escapeIntermediate
  | utf8 (length : Nat) (alt : Bool)
  | csi
  | ss3
  | paste (matched : Nat)
  | string (bell escape : Bool)
  | failed
deriving DecidableEq

/-- The one error of the decoder. -/
inductive KeyError
  | invalidData
deriving DecidableEq

abbrev KeyResult := Except KeyError (Option KeyEvent)

structure KeyDecoder where
  state : DecoderState
  pending : List UInt8
  consumed : Nat
deriving DecidableEq

/-- The bytes a token may have. -/
def tokenLimit : Nat := 65536

/-- The bytes of a control sequence behind its introducer, and the bytes up to an intermediate. -/
def sequenceLimit : Nat := 128

def within (low high byte : UInt8) : Bool := low ≤ byte && byte ≤ high

def isIntermediate : UInt8 → Bool := within 0x20 0x2F
def isParameter : UInt8 → Bool := within 0x20 0x3F
def isFinal : UInt8 → Bool := within 0x40 0x7E
def isEscapeFinal : UInt8 → Bool := within 0x30 0x7E
def isLead : UInt8 → Bool := within 0xC2 0xF4

/-- OSC, DCS, APC, PM and SOS. -/
def stringKinds : List UInt8 := [93, 80, 95, 94, 88]

def pasteStart : List UInt8 := [27, 91, 50, 48, 48, 126]
def pasteEnd : List UInt8 := [27, 91, 50, 48, 49, 126]

/-- The length of an encoded character, by its first byte. -/
def utf8Length (lead : UInt8) : Nat := if lead < 0xE0 then 2 else if lead < 0xF0 then 3 else 4

/-- The key of a byte that is a token by itself, and whether it is a control character. -/
def byteKey (byte : UInt8) : Option (Key × Bool) :=
  if byte = 13 ∨ byte = 10 then some (.enter, false)
  else if 1 ≤ byte ∧ byte ≤ 26 then some (.character (Char.ofUInt8 (97 + byte - 1)), true)
  else if 32 ≤ byte ∧ byte ≤ 126 then some (.character (Char.ofUInt8 byte), false)
  else if byte = 0 ∨ (28 ≤ byte ∧ byte ≤ 31) ∨ byte = 127 then some (.other, false)
  else none

/-- `from_utf8(..).ok()` and the first of its characters. -/
def firstChar (bytes : List UInt8) : Option Char :=
  (String.fromUTF8? bytes.toByteArray).bind fun text => text.toList.head?

namespace KeyDecoder

def new : KeyDecoder := ⟨.ground, [], 0⟩

def failure (decoder : KeyDecoder) : KeyDecoder × KeyResult :=
  ({ decoder with state := .failed, pending := [] }, .error .invalidData)

def event (key : Key) (control alt : Bool) : KeyDecoder × KeyResult :=
  (new, .ok (some ⟨key, ⟨control, alt⟩⟩))

variable (decoder : KeyDecoder)

def enter (state : DecoderState) : KeyDecoder × KeyResult := ({ decoder with state }, .ok none)

def character (byte : UInt8) (alt : Bool) : KeyDecoder × KeyResult :=
  match byteKey byte with
  | some (key, control) => event key control alt
  | none =>
    if isLead byte then
      { decoder with pending := decoder.pending ++ [byte] }.enter (.utf8 (utf8Length byte) alt)
    else decoder.failure

/-- A byte after `ESC`. -/
def pushEscape (byte : UInt8) : KeyDecoder × KeyResult :=
  if byte = 91 then decoder.enter .csi
  else if byte = 79 then decoder.enter .ss3
  else if byte = 27 then (⟨.escape, [], 1⟩, .ok (some (.bare .escape)))
  else if byte ∈ stringKinds then decoder.enter (.string (byte = 93) false)
  else if isIntermediate byte then decoder.enter .escapeIntermediate
  else decoder.character byte true

/-- A byte of a multi-byte character. -/
def pushUtf8 (length : Nat) (alt : Bool) (byte : UInt8) : KeyDecoder × KeyResult :=
  let decoder := { decoder with pending := decoder.pending ++ [byte] }
  if decoder.pending.length < length then (decoder, .ok none)
  else
    match firstChar decoder.pending with
    | some char => event (.character char) false alt
    | none => decoder.failure

/-- A byte of a CSI or SS3 sequence. -/
def pushSequence (csi : Bool) (byte : UInt8) : KeyDecoder × KeyResult :=
  if sequenceLimit ≤ decoder.pending.length then decoder.failure
  else
    let decoder := { decoder with pending := decoder.pending ++ [byte] }
    if isParameter byte then (decoder, .ok none)
    else if isFinal byte then
      if csi ∧ decoder.pending = [50, 48, 48, 126] then { decoder with pending := [] }.enter
        (.paste 0)
      -- An X10 mouse packet has a raw payload after this final.
      else if csi ∧ decoder.pending = [77] then decoder.failure
      else event .other false false
    else decoder.failure

/-- How much of the end marker of a paste is matched with one more byte. -/
def advance (matched : Nat) (byte : UInt8) : Nat :=
  if pasteEnd[matched]? = some byte then matched + 1 else if byte = 27 then 1 else 0

/-- A byte, by the state of the decoder. -/
def pushState (byte : UInt8) : KeyDecoder × KeyResult :=
  match decoder.state with
  | .failed => decoder.failure
  | .ground => if byte = 27 then decoder.enter .escape else decoder.character byte false
  | .escape => decoder.pushEscape byte
  | .escapeIntermediate =>
    if isIntermediate byte ∧ decoder.consumed ≤ sequenceLimit then (decoder, .ok none)
    else if isEscapeFinal byte then event .other false false
    else decoder.failure
  | .utf8 length alt => decoder.pushUtf8 length alt byte
  | .csi => decoder.pushSequence true byte
  | .ss3 => decoder.pushSequence false byte
  | .paste matched =>
    if advance matched byte = pasteEnd.length then event .other false false
    else decoder.enter (.paste (advance matched byte))
  | .string bell escape =>
    if (bell ∧ byte = 7) ∨ (escape ∧ byte = 92) then event .other false false
    else decoder.enter (.string bell (byte = 27))

def push (byte : UInt8) : KeyDecoder × KeyResult :=
  let decoder := { decoder with consumed := decoder.consumed + 1 }
  if tokenLimit < decoder.consumed then decoder.failure else decoder.pushState byte

def finishPending : KeyDecoder × KeyResult :=
  match decoder.state with
  | .ground => (decoder, .ok none)
  | .escape => event .escape false false
  | _ => decoder.failure

/-- Bytes fed one by one, as long as every push succeeds, with the events they yield. -/
def feed (decoder : KeyDecoder) : List UInt8 → Option (KeyDecoder × List KeyEvent)
  | [] => some (decoder, [])
  | byte :: rest =>
    match decoder.push byte with
    | (after, .ok event) => (feed after rest).map fun fed => (fed.1, event.toList ++ fed.2)
    | (_, .error _) => none

end KeyDecoder

/-- A call on a decoder. -/
inductive KeyCall
  | push (byte : UInt8)
  | finishPending

def KeyDecoder.call (decoder : KeyDecoder) : KeyCall → KeyDecoder × KeyResult
  | .push byte => decoder.push byte
  | .finishPending => decoder.finishPending

/-- The results of a sequence of calls. -/
def KeyDecoder.results (decoder : KeyDecoder) : List KeyCall → List KeyResult
  | [] => []
  | call :: rest => (decoder.call call).2 :: (decoder.call call).1.results rest

/-! ## The grammar -/

/-- The byte after `ESC` that introduces a CSI or an SS3 sequence. -/
def introducer (csi : Bool) : UInt8 := if csi then 91 else 79

/-- The mark of an Alt character. -/
def mark (alt : Bool) : List UInt8 := if alt then [27] else []

/-- Bytes that begin another kind of token after `ESC`. -/
def ambiguous (byte : UInt8) : Bool :=
  byte = 91 || byte = 79 || byte = 27 || byte ∈ stringKinds || isIntermediate byte

/-- A string ends with `ESC \`, and an OSC string also with a bell. -/
def stringEnds (kind : UInt8) (body : List UInt8) : Prop :=
  (kind = 93 ∧ [7] <:+ body) ∨ [27, 92] <:+ body

def pasteEnds (body : List UInt8) : Prop := pasteEnd <:+ body

/-- A body that has not ended at any of its bytes. -/
def Unended (ends : List UInt8 → Prop) (body : List UInt8) : Prop :=
  ∀ part, part <+: body → ¬ ends part

/-- The tokens and their events, apart from an `ESC` closed by another. -/
inductive Token : List UInt8 → KeyEvent → Prop
  | byte {alt byte key control} (simple : byteKey byte = some (key, control))
      (clear : alt = true → ambiguous byte = false) :
      Token (mark alt ++ [byte]) ⟨key, ⟨control, alt⟩⟩
  | scalar {alt char} (wide : 128 ≤ char.val.toNat) :
      Token (mark alt ++ String.utf8EncodeChar char) ⟨.character char, ⟨false, alt⟩⟩
  | intermediates {middle final} (some : middle ≠ []) (each : ∀ byte ∈ middle, isIntermediate byte)
      (few : middle.length < sequenceLimit) (last : isEscapeFinal final) :
      Token (27 :: middle ++ [final]) (.bare .other)
  | control {csi body final} (each : ∀ byte ∈ body, isParameter byte)
      (few : body.length < sequenceLimit) (last : isFinal final)
      (plain : csi = true → body ++ [final] ≠ [50, 48, 48, 126] ∧ body ++ [final] ≠ [77]) :
      Token (27 :: introducer csi :: body ++ [final]) (.bare .other)
  | string {kind body last} (known : kind ∈ stringKinds) (unended : Unended (stringEnds kind) body)
      (ends : stringEnds kind (body ++ [last])) :
      Token (27 :: kind :: body ++ [last]) (.bare .other)
  | paste {body last} (unended : Unended pasteEnds body) (ends : pasteEnds (body ++ [last])) :
      Token (pasteStart ++ body ++ [last]) (.bare .other)

/-- How much of the end marker the bytes of a paste end with. -/
def progress (body : List UInt8) : Nat := body.foldl KeyDecoder.advance 0

/-- The bytes of an unfinished token, and what the decoder keeps of them. -/
inductive Reading : KeyDecoder → List UInt8 → Prop
  | start : Reading .new []
  | escape : Reading ⟨.escape, [], 1⟩ [27]
  | intermediates {middle} (some : middle ≠ []) (each : ∀ byte ∈ middle, isIntermediate byte)
      (few : middle.length < sequenceLimit) :
      Reading ⟨.escapeIntermediate, [], 1 + middle.length⟩ (27 :: middle)
  | scalar {alt lead rest} (first : isLead lead) (short : rest.length + 1 < utf8Length lead) :
      Reading ⟨.utf8 (utf8Length lead) alt, lead :: rest, (mark alt).length + 1 + rest.length⟩
        (mark alt ++ lead :: rest)
  | control {csi body} (each : ∀ byte ∈ body, isParameter byte)
    (few : body.length ≤ sequenceLimit) :
      Reading ⟨if csi then .csi else .ss3, body, 2 + body.length⟩ (27 :: introducer csi :: body)
  | string {kind body} (known : kind ∈ stringKinds) (unended : Unended (stringEnds kind) body) :
      Reading ⟨.string (kind = 93) (body.getLast? = some 27), [], 2 + body.length⟩
        (27 :: kind :: body)
  | paste {body} (unended : Unended pasteEnds body) :
      Reading ⟨.paste (progress body), [], 6 + body.length⟩ (pasteStart ++ body)

/-- An unfinished token within the limits. -/
def Unfinished (bytes : List UInt8) : Prop :=
  bytes.length ≤ tokenLimit ∧ ∃ decoder, Reading decoder bytes

/-- Bytes that are tokens, with their events, and an unfinished token. -/
inductive Tokens : List UInt8 → List KeyEvent → Prop
  | unfinished {bytes} (rest : Unfinished bytes) : Tokens bytes []
  | token {bytes event rest events} (first : Token bytes event) (few : bytes.length ≤ tokenLimit)
      (others : Tokens rest events) : Tokens (bytes ++ rest) (event :: events)
  | escape {rest events} (others : Tokens (27 :: rest) events) :
      Tokens (27 :: 27 :: rest) (.bare .escape :: events)

end KernalApi.Terminal
