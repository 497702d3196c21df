import KernalApi.Terminal.Keys

/-!
# The decoder accepts the tokens of the grammar

`Reading` is kept by every push that yields nothing, and a push that yields an event
closes a token. Conversely the decoder runs through every token.
-/

namespace KernalApi.Terminal

open KernalApi.Std KeyDecoder List KeyDecoder Reading

variable {decoder after : KeyDecoder} {bytes body part : List UInt8} {byte : UInt8}

/-! ## Bodies -/

variable {ends : List UInt8 → Prop}

theorem Unended.concat (unended : Unended ends body) (going : ¬ ends (body ++ [byte])) :
    Unended ends (body ++ [byte]) := by
  intro part starts
  rcases prefix_concat_iff.mp starts with rfl | starts
  · exact going
  · exact unended part starts

theorem Unended.mono (unended : Unended ends body) (starts : part <+: body) :
    Unended ends part := fun other prior => unended other (prior.trans starts)

theorem concat_suffix_concat {first second : List UInt8} {last : UInt8} :
    first ++ [last] <:+ second ++ [byte] ↔ first <:+ second ∧ last = byte := by
  rw [← reverse_prefix]
  simp [and_comm]

theorem stringEnds_concat {kind : UInt8} :
    stringEnds kind (body ++ [byte]) ↔
      (kind = 93 ∧ byte = 7) ∨ (body.getLast? = some 27 ∧ byte = 92) := by
  have bell : [7] <:+ body ++ [byte] ↔ byte = 7 :=
    (@concat_suffix_concat byte [] body 7).trans ⟨fun ends => ends.2.symm,
      fun same => ⟨nil_suffix, same.symm⟩⟩
  have escape : [27, 92] <:+ body ++ [byte] ↔ body.getLast? = some 27 ∧ byte = 92 := by
    rw [getLast?_eq_some_iff]
    refine (@concat_suffix_concat byte [27] body 92).trans (and_congr ?_ eq_comm)
    exact exists_congr fun front => eq_comm
  rw [stringEnds, bell, escape]

/-- The longest part of the end marker of a paste that bytes end with. -/
structure Matches (body : List UInt8) (matched : Nat) : Prop where
  ends : pasteEnd.take matched <:+ body
  longest : ∀ other ≤ pasteEnd.length, pasteEnd.take other <:+ body → other ≤ matched

theorem take_suffix_concat {count : Nat} (inside : count < pasteEnd.length) :
    pasteEnd.take (count + 1) <:+ body ++ [byte] ↔
      pasteEnd.take count <:+ body ∧ pasteEnd[count]? = some byte := by
  rw [take_add_one, getElem?_eq_getElem inside, Option.toList_some, concat_suffix_concat,
    Option.some_inj]

/-- `ESC` stands only at the start of the marker: no part of it ends with another. -/
theorem marker_border : ∀ matched < pasteEnd.length, ∀ count < matched,
    pasteEnd.take count <:+ pasteEnd.take matched → count = 0 := by
  decide

/-- The marker matcher keeps the longest match. -/
theorem Matches.advance {matched : Nat} (found : Matches body matched)
    (inside : matched < pasteEnd.length) :
    Matches (body ++ [byte]) (KeyDecoder.advance matched byte) := by
  -- After a mismatch only the first byte of the marker can match.
  have first : pasteEnd[matched]? ≠ some byte → ∀ other, other < pasteEnd.length →
      pasteEnd.take (other + 1) <:+ body ++ [byte] → other = 0 ∧ byte = 27 := by
    intro mismatch other few ends
    obtain ⟨ends, next⟩ := (take_suffix_concat few).mp ends
    have less : other < matched := by
      apply lt_of_le_of_ne (found.longest other few.le ends)
      rintro rfl
      exact mismatch next
    obtain rfl := marker_border matched inside other less
      (suffix_of_suffix_length_le ends found.ends (by simp only [length_take]; omega))
    exact ⟨rfl, (Option.some.inj next).symm⟩
  unfold KeyDecoder.advance
  split_ifs with next start
  · refine ⟨(take_suffix_concat inside).mpr ⟨found.ends, next⟩, ?_⟩
    rintro (_ | other) few ends
    · omega
    · exact Nat.succ_le_succ (found.longest other (by omega) ((take_suffix_concat few).mp ends).1)
  · refine ⟨(take_suffix_concat (by decide)).mpr ⟨nil_suffix, congrArg some start.symm⟩, ?_⟩
    rintro (_ | other) few ends
    · omega
    · exact Nat.succ_le_succ (Nat.le_of_eq (first next other few ends).1)
  · refine ⟨nil_suffix, ?_⟩
    rintro (_ | other) few ends
    · exact Nat.le_refl _
    · exact absurd (first next other few ends).2 start

@[simp] theorem progress_concat :
    progress (body ++ [byte]) = KeyDecoder.advance (progress body) byte := by
  simp [progress]

theorem progress_matches (unended : Unended pasteEnds body) :
    Matches body (progress body) ∧ progress body < pasteEnd.length := by
  induction body using reverseRecOn with
  | nil =>
    refine ⟨⟨nil_suffix, fun other few ends => ?_⟩, by decide⟩
    have short := ends.length_le
    rw [length_take, length_nil] at short
    omega
  | append_singleton body byte ih =>
    obtain ⟨found, inside⟩ := ih (unended.mono (prefix_append _ _))
    have next : Matches (body ++ [byte]) (progress (body ++ [byte])) :=
      progress_concat ▸ found.advance inside
    refine ⟨next, Nat.lt_of_not_le fun whole => unended _ prefix_rfl ?_⟩
    have ends := next.ends
    rwa [take_of_length_le whole] at ends

theorem pasteEnds_concat (unended : Unended pasteEnds body) :
    pasteEnds (body ++ [byte]) ↔ KeyDecoder.advance (progress body) byte = pasteEnd.length := by
  obtain ⟨found, inside⟩ := progress_matches unended
  have next : Matches (body ++ [byte]) (advance (progress body) byte) := found.advance inside
  constructor
  · intro ends
    have above := next.longest _ (Nat.le_refl _) (by rwa [take_length])
    refine Nat.le_antisymm ?_ above
    unfold advance
    split_ifs
    · exact inside
    · decide
    · decide
  · intro whole
    have ends := next.ends
    rwa [whole] at ends

/-! ## Characters -/

theorem lead_ofNat {value : Nat} (small : value < 256) :
    (isLead (UInt8.ofNat value) = true ↔ 194 ≤ value ∧ value ≤ 244) ∧
      utf8Length (UInt8.ofNat value) = if value < 224 then 2 else if value < 240 then 3 else 4 := by
  simp only [isLead, within, utf8Length, UInt8.lt_iff_toNat_lt, UInt8.le_iff_toNat_le,
    UInt8.toNat_ofNat_of_lt' small, UInt8.reduceToNat, Bool.and_eq_true, decide_eq_true_eq,
      and_self]

variable {char : Char}

theorem utf8EncodeChar_lead (wide : 128 ≤ char.val.toNat) :
    ∃ lead rest, String.utf8EncodeChar char = lead :: rest ∧ isLead lead ∧
      rest.length + 1 = utf8Length lead := by
  have scalar : char.val.toNat < 55296 ∨ 57343 < char.val.toNat ∧ char.val.toNat < 1114112 :=
    char.valid
  unfold String.utf8EncodeChar
  simp only
  split_ifs with one two three
  · omega
  · obtain ⟨first, length⟩ := lead_ofNat (show char.val.toNat / 64 % 32 + 192 < 256 by omega)
    refine ⟨_, _, rfl, first.mpr (by omega), ?_⟩
    rw [length, if_pos (by omega)]
    rfl
  · obtain ⟨first, length⟩ := lead_ofNat (show char.val.toNat / 4096 % 16 + 224 < 256 by omega)
    refine ⟨_, _, rfl, first.mpr (by omega), ?_⟩
    rw [length, if_neg (by omega), if_pos (by omega)]
    rfl
  · obtain ⟨first, length⟩ := lead_ofNat (show char.val.toNat / 262144 % 8 + 240 < 256 by omega)
    refine ⟨_, _, rfl, first.mpr (by omega), ?_⟩
    rw [length]
    rfl

theorem firstChar_encode (text : List Char) : firstChar (Utf8.encode text) = text.head? := by
  have read : String.fromUTF8? (Utf8.encode text).toByteArray = some (String.ofList text) :=
    Utf8.fromUTF8?_eq_some.mpr (by rw [String.toList_ofList])
  rw [firstChar, read, Option.bind_some, String.toList_ofList]

theorem encode_of_firstChar (found : firstChar bytes = some char) :
    ∃ more, bytes = Utf8.encode (char :: more) := by
  obtain ⟨text, read, first⟩ := Option.bind_eq_some_iff.mp found
  obtain ⟨more, equal⟩ := head?_eq_some_iff.mp first
  exact ⟨more, equal ▸ Utf8.fromUTF8?_eq_some.mp read⟩

/-- A whole character is read back from its bytes, and from no others of its length. -/
theorem firstChar_iff {lead : UInt8} {rest : List UInt8} (first : isLead lead)
    (whole : rest.length + 1 = utf8Length lead) :
    firstChar (lead :: rest) = some char ↔
      128 ≤ char.val.toNat ∧ String.utf8EncodeChar char = lead :: rest := by
  constructor
  · intro found
    obtain ⟨more, spelled⟩ := encode_of_firstChar found
    rw [Utf8.encode_cons] at spelled
    have wide : 128 ≤ char.val.toNat := by
      by_contra narrow
      rw [String.utf8EncodeChar, if_pos (by omega)] at spelled
      cases spelled
      have inside := (lead_ofNat (show char.val.toNat < 256 by omega)).1.mp first
      omega
    obtain ⟨other, tail, encoded, _, length⟩ := utf8EncodeChar_lead wide
    rw [encoded, cons_append] at spelled
    obtain ⟨rfl, same⟩ := cons.inj spelled
    have none : (Utf8.encode more).length = 0 := by
      have sizes := congrArg List.length same
      rw [length_append] at sizes
      omega
    rw [encoded, same, eq_nil_of_length_eq_zero none, append_nil]
    exact ⟨wide, rfl⟩
  · rintro ⟨_, same⟩
    rw [← same]
    have read := firstChar_encode [char]
    rwa [Utf8.encode_cons, Utf8.encode_nil, append_nil] at read

/-! ## Feeding bytes -/

theorem feed_append (first second : List UInt8) :
    decoder.feed (first ++ second) = (decoder.feed first).bind fun fed =>
      (fed.1.feed second).map fun more => (more.1, fed.2 ++ more.2) := by
  induction first generalizing decoder with
  | nil => simp [feed]
  | cons byte first ih =>
    rw [cons_append, feed, feed]
    split
    next after event _ =>
      rw [ih]
      cases after.feed first with
      | none => rfl
      | some => simp [Function.comp_def]
    next => rfl

variable {events : List KeyEvent}

theorem feed_trans {middle : KeyDecoder} {first second : List UInt8} {prior : List KeyEvent}
    (before : decoder.feed first = some (middle, prior))
    (next : middle.feed second = some (after, events)) :
    decoder.feed (first ++ second) = some (after, prior ++ events) := by
  rw [feed_append, before, Option.bind_some, next]
  rfl

/-- One push that succeeds. -/
theorem feed_push {event : Option KeyEvent} (pushed : decoder.push byte = (after, .ok event)) :
    decoder.feed [byte] = some (after, event.toList) := by
  rw [feed, pushed]
  exact congrArg (fun events => some (after, events)) (append_nil _)

theorem push_eq (few : decoder.consumed < tokenLimit) :
    decoder.push byte = { decoder with consumed := decoder.consumed + 1 }.pushState byte :=
  if_neg (Nat.not_lt.mpr few)

/-- A loop of the decoder: its state is a function of the bytes of the loop. -/
theorem feed_loop (state : List UInt8 → KeyDecoder)
    (step : ∀ part byte, part ++ [byte] <+: body →
      (state part).push byte = (state (part ++ [byte]), .ok none)) :
    (state []).feed body = some (state body, []) := by
  induction body using reverseRecOn with
  | nil => rfl
  | append_singleton body byte ih =>
    exact feed_trans (ih fun part other starts =>
      step part other (starts.trans (prefix_append _ _))) (feed_push (step body byte prefix_rfl))

/-- The decoder after the mark of an Alt character, or before any other. -/
def afterMark (alt : Bool) : KeyDecoder := ⟨if alt then .escape else .ground, [], (mark alt).length⟩

theorem feed_mark (alt : Bool) : new.feed (mark alt) = some (afterMark alt, []) := by
  cases alt <;> decide

theorem lead_apart (first : isLead byte) : byteKey byte = none ∧ ambiguous byte = false := by
  simp only [isLead, within, Bool.and_eq_true, decide_eq_true_eq, UInt8.le_iff_toNat_le] at first
  constructor
  · simp only [byteKey, UInt8.le_iff_toNat_le, ← UInt8.toNat_inj]
    simp only [UInt8.reduceToNat] at first ⊢
    rw [if_neg (by omega), if_neg (by omega), if_neg (by omega), if_neg (by omega)]
  simp only [ambiguous, stringKinds, isIntermediate, within, mem_cons, not_mem_nil, or_false,
    Bool.or_eq_false_iff, decide_eq_false_iff_not, Bool.and_eq_false_iff, UInt8.le_iff_toNat_le,
    ← UInt8.toNat_inj]
  simp only [UInt8.reduceToNat] at first ⊢
  omega

theorem pushEscape_clear (clear : ambiguous byte = false) :
    decoder.pushEscape byte = decoder.character byte true := by
  simp only [ambiguous, Bool.or_eq_false_iff, decide_eq_false_iff_not] at clear
  simp [pushEscape, clear]

theorem pushEscape_string (known : byte ∈ stringKinds) :
    decoder.pushEscape byte = decoder.enter (.string (byte = 93) false) := by
  have apart : byte ≠ 91 ∧ byte ≠ 79 ∧ byte ≠ 27 := by
    refine ⟨?_, ?_, ?_⟩ <;> rintro rfl <;> revert known <;> decide
  simp [pushEscape, known, apart]

theorem pushEscape_intermediate (middle : isIntermediate byte) :
    decoder.pushEscape byte = decoder.enter .escapeIntermediate := by
  have apart : byte ≠ 91 ∧ byte ≠ 79 ∧ byte ≠ 27 := by
    refine ⟨?_, ?_, ?_⟩ <;> rintro rfl <;> revert middle <;> decide
  have other : byte ∉ stringKinds := by
    intro known
    simp only [stringKinds, mem_cons, not_mem_nil, or_false] at known
    rcases known with rfl | rfl | rfl | rfl | rfl <;> revert middle <;> decide
  simp [pushEscape, middle, other, apart]

variable {alt : Bool}

theorem push_afterMark (apart : byte ≠ 27) (clear : alt = true → ambiguous byte = false) :
    (afterMark alt).push byte =
      { afterMark alt with consumed := (mark alt).length + 1 }.character byte alt := by
  cases alt with
  | false => simp [push, pushState, afterMark, mark, apart, tokenLimit]
  | true => simp [push, pushState, afterMark, mark, pushEscape_clear (clear rfl), tokenLimit]

/-- The decoder runs through every unfinished token. -/
theorem Reading.feed (reading : Reading decoder bytes) (few : bytes.length ≤ tokenLimit) :
    new.feed bytes = some (decoder, []) := by
  have escape : new.feed [27] = some (⟨.escape, [], 1⟩, []) := by decide
  cases reading with
  | start => rfl
  | escape => exact escape
  | @intermediates middle some each short =>
    have loop := @feed_loop middle
      (fun part => ⟨if part = [] then .escape else .escapeIntermediate, [], 1 + part.length⟩) ?_
    · rw [if_neg some] at loop
      exact feed_trans escape loop
    · intro part byte starts
      have inside := each byte (starts.subset (by simp))
      have size := starts.length_le
      simp only [length_append, length_singleton] at size
      rw [push_eq (show 1 + part.length < tokenLimit by simp only [length_cons] at few; omega)]
      by_cases first : part = []
      · simp [first, pushState, pushEscape_intermediate inside, enter]
      · have room : 1 + (part.length + 1) ≤ sequenceLimit := by omega
        simp [first, pushState, inside, room, Nat.add_assoc]
  | @scalar alt lead rest first short =>
    obtain ⟨keyless, clear⟩ := lead_apart first
    have apart : lead ≠ 27 := by
      rintro rfl
      exact absurd first (by decide)
    have loop := @feed_loop rest
      (fun part => ⟨.utf8 (utf8Length lead) alt, lead :: part, (mark alt).length + 1 + part.length⟩)
      ?_
    · have opened : (afterMark alt).push lead =
          (⟨.utf8 (utf8Length lead) alt, [lead], (mark alt).length + 1⟩, .ok none) := by
        rw [push_afterMark apart fun _ => clear]
        simp [character, keyless, first, enter, afterMark]
      exact feed_trans (feed_mark alt) (feed_trans (feed_push opened) loop)
    · intro part byte starts
      have size := starts.length_le
      simp only [length_append, length_cons] at size few
      rw [push_eq (show (mark alt).length + 1 + part.length < tokenLimit by omega)]
      simp [pushState, pushUtf8, Nat.add_assoc]
      omega
  | @control csi body each short =>
    have loop := @feed_loop body (fun part => ⟨if csi then .csi else .ss3, part, 2 + part.length⟩)
      ?_
    · have opened : new.feed [27, introducer csi] =
          some (⟨if csi then .csi else .ss3, [], 2⟩, []) := by
        cases csi <;> decide
      exact feed_trans opened loop
    · intro part byte starts
      have inside := each byte (starts.subset (by simp))
      have size := starts.length_le
      simp only [length_append, length_cons] at size few
      rw [push_eq (show 2 + part.length < tokenLimit by omega)]
      have room : ¬ sequenceLimit ≤ part.length := by omega
      cases csi <;> simp [pushState, pushSequence, room, inside, Nat.add_assoc]
  | @string kind body known unended =>
    have loop := @feed_loop body
      (fun part => ⟨.string (kind = 93) (part.getLast? = some 27), [], 2 + part.length⟩) ?_
    · have opened : (⟨.escape, [], 1⟩ : KeyDecoder).push kind =
          (⟨.string (kind = 93) false, [], 2⟩, .ok none) := by
        simp [push, pushState, pushEscape_string known, enter, tokenLimit]
      exact feed_trans escape (feed_trans (feed_push opened) loop)
    · intro part byte starts
      have size := starts.length_le
      simp only [length_append, length_cons] at size few
      have going := mt stringEnds_concat.mpr (unended _ starts)
      rw [push_eq (show 2 + part.length < tokenLimit by omega)]
      simp [pushState, going, enter, Nat.add_assoc]
  | @paste body unended =>
    have loop := @feed_loop body (fun part => ⟨.paste (progress part), [], 6 + part.length⟩) ?_
    · have opened : new.feed pasteStart = some (⟨.paste 0, [], 6⟩, []) := by decide
      exact feed_trans opened loop
    · intro part byte starts
      have size := starts.length_le
      simp only [length_append, pasteStart, length_cons] at size few
      have prior := unended.mono ((prefix_append part [byte]).trans starts)
      have going := mt (pasteEnds_concat prior).mpr (unended _ starts)
      rw [push_eq (show 6 + part.length < tokenLimit by omega)]
      simp [pushState, going, enter, Nat.add_assoc]

theorem Reading.consumed (reading : Reading decoder bytes) : decoder.consumed = bytes.length := by
  cases reading <;> simp [new, pasteStart] <;> omega

/-! ## What a push does -/

/-- What a push that read the last of these bytes leaves. -/
def Follows (bytes : List UInt8) : KeyDecoder × KeyResult → Prop
  | (after, .ok none) => Reading after bytes
  | (after, .ok (some event)) =>
    (after = new ∧ Token bytes event) ∨
      (bytes = [27, 27] ∧ after = ⟨.escape, [], 1⟩ ∧ event = .bare .escape)
  | (_, .error _) => True

theorem follows_character (clear : alt = true → ambiguous byte = false) :
    Follows (mark alt ++ [byte])
      ((⟨decoder.state, [], (mark alt).length + 1⟩ : KeyDecoder).character byte alt) := by
  unfold character
  split
  next simple => exact .inl ⟨rfl, .byte simple clear⟩
  split_ifs with first
  · apply scalar first
    unfold utf8Length
    split_ifs <;> decide
  · trivial

theorem follows_escape : Follows [27, byte]
    (({ state := .escape, pending := [], consumed := 2 } : KeyDecoder).pushEscape byte) := by
  unfold pushEscape
  split_ifs with csi ss3 again known middle
  · subst csi
    exact @Reading.control true [] (by simp) (by decide)
  · subst ss3
    exact @control false [] (by simp) (by decide)
  · subst again
    exact .inr ⟨rfl, rfl, rfl⟩
  · exact @string byte [] known fun part starts => by simp [stringEnds, prefix_nil.mp starts]
  · exact @intermediates [byte] (by simp) (by simpa using middle) (show 1 < 128 by decide)
  · refine @follows_character ⟨.escape, [], 2⟩ byte true fun _ => ?_
    simp [ambiguous, csi, ss3, again, known, middle]

theorem follows_sequence {csi : Bool} {state : DecoderState}
    (known : state = if csi then .csi else .ss3) (each : ∀ byte ∈ body, isParameter byte) :
    Follows (27 :: introducer csi :: (body ++ [byte]))
      ((⟨state, body, 2 + body.length + 1⟩ : KeyDecoder).pushSequence csi byte) := by
  unfold pushSequence
  simp only
  split_ifs with full parameter final paste mouse
  · trivial
  · subst known
    have kept := @control csi (body ++ [byte])
      (by simpa [or_imp, forall_and] using ⟨each, parameter⟩)
      (by rw [length_append]; exact Nat.lt_of_not_le full)
    rw [length_append] at kept
    exact kept
  · obtain ⟨rfl, same⟩ := paste
    have whole : 2 + body.length + 1 = 6 := by
      have size := congrArg length same
      simp only [length_append, length_cons] at size
      omega
    rw [same, whole]
    exact @paste [] fun part starts => by simp [pasteEnds, pasteEnd, prefix_nil.mp starts]
  · trivial
  · refine .inl ⟨rfl, Token.control each (Nat.lt_of_not_le full) final ?_⟩
    rintro rfl
    exact ⟨fun same => paste ⟨rfl, same⟩, fun same => mouse ⟨rfl, same⟩⟩
  · trivial

theorem Reading.follows (reading : Reading decoder bytes) :
    Follows (bytes ++ [byte]) (decoder.push byte) := by
  unfold push
  simp only
  split_ifs with long
  · trivial
  cases reading with
  | start =>
    simp only [pushState, new]
    split_ifs with escape
    · subst escape
      exact .escape
    · exact @follows_character new byte false fun absurd => by cases absurd
  | escape => exact follows_escape
  | @intermediates middle some each short =>
    simp only [pushState]
    split_ifs with more final
    · have kept := @intermediates (middle ++ [byte]) (by simp)
        (by simpa [or_imp, forall_and] using ⟨each, more.1⟩)
        (by rw [length_append, length_singleton]; omega)
      rw [length_append] at kept
      exact kept
    · exact .inl ⟨rfl, .intermediates some each short final⟩
    · trivial
  | @scalar alt lead rest first short =>
    simp only [pushState, pushUtf8, append_assoc, cons_append, length_cons,
      length_append, length_nil]
    split_ifs with going
    · have kept := @scalar alt lead (rest ++ [byte]) first (by simpa using going)
      rw [length_append] at kept
      exact kept
    have whole : (rest ++ [byte]).length + 1 = utf8Length lead := by
      rw [length_append, length_singleton]
      omega
    split
    next char read =>
      obtain ⟨wide, spelled⟩ := (firstChar_iff first whole).mp read
      refine .inl ⟨rfl, ?_⟩
      rw [← spelled]
      exact .scalar wide
    next => trivial
  | @control csi body each short => cases csi <;> exact follows_sequence rfl each
  | @string kind body known unended =>
    have ended := @stringEnds_concat body byte kind
    simp only [pushState, decide_eq_true_eq]
    split_ifs with last
    · exact .inl ⟨rfl, .string known unended (ended.mpr last)⟩
    · have kept := string known (unended.concat (mt ended.mp last))
      simp only [length_append, getLast?_concat, Option.some_inj] at kept
      exact kept
  | @paste body unended =>
    have ended := @pasteEnds_concat body byte unended
    simp only [pushState]
    split_ifs with last
    · exact .inl ⟨rfl, .paste unended (ended.mpr last)⟩
    · have kept := paste (unended.concat (mt ended.mp last))
      rw [progress_concat, length_append] at kept
      exact kept

/-! ## Runs -/

/-- Bytes that the decoder accepts are tokens. -/
theorem Reading.tokens {rest : List UInt8} (reading : Reading decoder bytes)
    (few : bytes.length ≤ tokenLimit) (fed : decoder.feed rest = some (after, events)) :
    Tokens (bytes ++ rest) events := by
  induction rest generalizing decoder bytes events with
  | nil =>
    cases fed
    rw [append_nil]
    exact .unfinished ⟨few, _, reading⟩
  | cons byte rest ih =>
    have follows := @follows decoder bytes byte reading
    rw [KeyDecoder.feed] at fed
    split at fed
    next middle event pushed =>
      rw [pushed] at follows
      obtain ⟨⟨_, later⟩, continued, same⟩ := Option.map_eq_some_iff.mp fed
      obtain ⟨rfl, rfl⟩ := Prod.mk.inj same
      have short : (bytes ++ [byte]).length ≤ tokenLimit := by
        by_contra long
        rw [length_append, length_singleton, ← reading.consumed] at long
        rw [push, if_pos (Nat.not_le.mp long)] at pushed
        cases pushed
      rw [← singleton_append, ← append_assoc]
      cases event with
      | none => exact ih follows short continued
      | some event =>
        rcases follows with ⟨rfl, closed⟩ | ⟨twice, rfl, rfl⟩
        · exact .token closed short (ih .start (Nat.zero_le _) continued)
        · rw [twice]
          exact .escape (ih .escape (by decide) continued)
    next => cases fed

variable {event : KeyEvent}

theorem Reading.close (reading : Reading decoder bytes)
    (few : (bytes ++ [byte]).length ≤ tokenLimit)
    (closes : { decoder with consumed := decoder.consumed + 1 }.pushState byte =
      (new, .ok (some event))) :
    new.feed (bytes ++ [byte]) = some (new, [event]) := by
  rw [length_append, length_singleton] at few
  refine feed_trans (reading.feed (by omega)) (@feed_push decoder new byte (some event) ?_)
  rw [push_eq (by rw [reading.consumed]; omega), closes]

theorem within_apart {low high later stop : UInt8} (gap : high < later)
    (inside : within later stop byte) : within low high byte = false := by
  simp only [within, Bool.and_eq_true, Bool.and_eq_false_iff, decide_eq_true_eq,
    decide_eq_false_iff_not, UInt8.le_iff_toNat_le, UInt8.lt_iff_toNat_lt] at gap inside ⊢
  omega

/-- The decoder runs through every token and yields its event. -/
theorem Token.feed (token : Token bytes event) (few : bytes.length ≤ tokenLimit) :
    new.feed bytes = some (new, [event]) := by
  cases token with
  | @byte alt byte key control simple clear =>
    have apart : byte ≠ 27 := by
      rintro rfl
      cases simple
    refine feed_trans (feed_mark alt) (@feed_push _ new byte (some _) ?_)
    rw [push_afterMark apart clear]
    simp [character, simple, event]
  | @scalar alt char wide =>
    obtain ⟨lead, rest, spelled, first, whole⟩ := utf8EncodeChar_lead wide
    have read := (firstChar_iff first whole).mpr ⟨wide, spelled⟩
    rw [spelled] at few ⊢
    obtain rfl | ⟨front, last, rfl⟩ := eq_nil_or_concat' rest
    · have two : 2 ≤ utf8Length lead := by
        unfold utf8Length
        split_ifs <;> decide
      exact absurd whole (by simp; omega)
    · rw [length_append, length_singleton] at whole
      rw [show mark alt ++ lead :: (front ++ [last]) =
        (mark alt ++ lead :: front) ++ [last] by simp] at few ⊢
      refine (Reading.scalar first (by omega)).close few ?_
      simp [pushState, pushUtf8, ← whole, read, event]
  | @intermediates middle final some each short last =>
    refine (Reading.intermediates some each short).close few ?_
    simp [pushState, show isIntermediate final = false from within_apart (by decide) last, last,
      event, KeyEvent.bare]
  | @control csi body final each short last plain =>
    refine (@Reading.control csi body each short.le).close few ?_
    have room : ¬ sequenceLimit ≤ body.length := Nat.not_le.mpr short
    have apart : isParameter final = false := within_apart (by decide) last
    cases csi with
    | false => simp [pushState, pushSequence, room, apart, last, event, KeyEvent.bare]
    | true =>
      obtain ⟨paste, mouse⟩ := plain rfl
      simp [pushState, pushSequence, room, apart, last, paste, mouse, event, KeyEvent.bare]
  | @string kind body last known unended ends =>
    refine (Reading.string known unended).close few ?_
    have ended := stringEnds_concat.mp ends
    simp [pushState, ended, event, KeyEvent.bare]
  | @paste body last unended ends =>
    refine (Reading.paste unended).close few ?_
    have ended := (pasteEnds_concat unended).mp ends
    simp [pushState, ended, event, KeyEvent.bare]

theorem Tokens.feed (tokens : Tokens bytes events) :
    ∃ decoder, new.feed bytes = some (decoder, events) := by
  induction tokens with
  | unfinished rest =>
    obtain ⟨few, decoder, reading⟩ := rest
    exact ⟨decoder, reading.feed few⟩
  | token first few _ ih =>
    obtain ⟨decoder, fed⟩ := ih
    exact ⟨decoder, feed_trans (first.feed few) fed⟩
  | @escape rest events _ ih =>
    obtain ⟨decoder, fed⟩ := ih
    have twice : new.feed [27, 27] = some (⟨.escape, [], 1⟩, [.bare .escape]) := by decide
    obtain ⟨more, continued, same⟩ := Option.map_eq_some_iff.mp fed
    cases same
    exact ⟨more.1, feed_trans twice continued⟩

/-- The body of a control sequence, string or paste yields no character and no `Enter`. -/
theorem Token.other_of_introduced {next : UInt8} (token : Token bytes event)
    (known : next ∈ 91 :: 79 :: stringKinds) (starts : [27, next] <+: bytes) :
    event = .bare .other := by
  have mixed : ambiguous next = true := by
    revert known
    simp only [stringKinds, mem_cons, not_mem_nil, or_false]
    rintro (rfl | rfl | rfl | rfl | rfl | rfl | rfl) <;> decide
  cases token with
  | @byte alt byte key control simple clear =>
    cases alt with
    | false => exact absurd starts.length_le (by simp [mark])
    | true =>
      obtain rfl : next = byte := by simpa [mark] using starts
      exact absurd mixed (by simp [clear rfl])
  | @scalar alt char wide =>
    obtain ⟨lead, rest, spelled, first, _⟩ := utf8EncodeChar_lead wide
    rw [spelled] at starts
    cases alt with
    | false =>
      obtain ⟨rfl, _⟩ := cons_prefix_cons.mp starts
      exact absurd first (by decide)
    | true =>
      obtain ⟨_, inner⟩ := cons_prefix_cons.mp starts
      obtain ⟨rfl, _⟩ := cons_prefix_cons.mp inner
      exact absurd mixed (by simp [(lead_apart first).2])
  | _ => rfl

/-- A call succeeds or leaves the decoder failed. -/
def Settled (result : KeyDecoder × KeyResult) : Prop :=
  (∃ event, result.2 = .ok event) ∨ result.1.state = .failed

theorem settled_character : Settled (decoder.character byte alt) := by
  unfold character
  split
  · exact .inl ⟨_, rfl⟩
  split_ifs
  · exact .inl ⟨_, rfl⟩
  · exact .inr rfl

theorem settled_pushSequence {csi : Bool} : Settled (decoder.pushSequence csi byte) := by
  unfold pushSequence
  simp only
  split_ifs <;> first | exact .inl ⟨_, rfl⟩ | exact .inr rfl

theorem settled_push : Settled (decoder.push byte) := by
  unfold push
  simp only
  split_ifs
  · exact .inr rfl
  unfold pushState
  split
  case h_3 =>
    unfold pushEscape
    split_ifs <;> first | exact settled_character | exact .inl ⟨_, rfl⟩
  case h_5 =>
    simp only [pushUtf8]
    split_ifs
    · exact .inl ⟨_, rfl⟩
    · split
      · exact .inl ⟨_, rfl⟩
      · exact .inr rfl
  case h_6 | h_7 => exact settled_pushSequence
  case h_1 => exact .inr rfl
  all_goals
    split_ifs <;> first | exact settled_character | exact .inl ⟨_, rfl⟩ | exact .inr rfl

theorem failed_of_error {call : KeyCall} {error : KeyError}
    (failed : (decoder.call call).2 = .error error) : (decoder.call call).1.state = .failed := by
  have settled : Settled (decoder.call call) := by
    cases call with
    | push => exact settled_push
    | finishPending =>
      simp only [call, finishPending]
      split
      · exact .inl ⟨_, rfl⟩
      · exact .inl ⟨_, rfl⟩
      · exact .inr rfl
  apply settled.resolve_left
  rintro ⟨event, succeeded⟩
  cases failed.symm.trans succeeded

theorem results_failed {calls : List KeyCall} (failed : decoder.state = .failed) :
    ∀ result ∈ decoder.results calls, result = .error .invalidData := by
  induction calls generalizing decoder with
  | nil => simp [results]
  | cons call rest ih =>
    have again : ∃ other : KeyDecoder, decoder.call call = other.failure := by
      cases call with
      | finishPending => exact ⟨decoder, by simp [call, finishPending, failed]⟩
      | push =>
        exact ⟨{ decoder with consumed := decoder.consumed + 1 },
          by simp [call, push, pushState, failed]⟩
    obtain ⟨other, same⟩ := again
    rw [results, same]
    exact forall_mem_cons.mpr ⟨rfl, ih rfl⟩

/-- The bytes a fresh decoder accepts, and their events, are those of the grammar; bodies yield no
keys; and an error is final. -/
theorem keyDecoder_grammar :
    (∀ bytes events, (∃ decoder, new.feed bytes = some (decoder, events)) ↔ Tokens bytes events) ∧
      (∀ bytes event next, Token bytes event → next ∈ 91 :: 79 :: stringKinds →
        [27, next] <+: bytes → event = .bare .other) ∧
      ∀ (decoder : KeyDecoder) call error, (decoder.call call).2 = .error error →
        ∀ calls, ∀ result ∈ (decoder.call call).1.results calls, result = .error .invalidData := by
  refine ⟨fun bytes events => ⟨fun ⟨_, fed⟩ => ?_, Tokens.feed⟩, fun _ _ _ token known starts =>
    token.other_of_introduced known starts, fun _ _ _ failed _ =>
      results_failed (failed_of_error failed)⟩
  exact tokens .start (Nat.zero_le _) fed

/-- A CSI sequence of 128 parameter bytes is accepted so far though no token begins with it, and the
sequence with the final `M` alone is refused. -/
theorem keyDecoder_dead :
    (∃ decoder, new.feed (27 :: 91 :: List.replicate 128 48) = some (decoder, [])) ∧
      (∀ bytes event, Token bytes event → bytes.length ≤ tokenLimit →
        ¬ 27 :: 91 :: List.replicate 128 48 <+: bytes) ∧
      new.feed [27, 91, 77] = none := by
  have reading := @control true (replicate 128 48)
    (by intro byte member; rw [eq_of_mem_replicate member]; rfl) (by simp [sequenceLimit])
  have fed := reading.feed (by simp [tokenLimit])
  refine ⟨⟨_, fed⟩, ?_, by decide⟩
  rintro bytes event token few ⟨rest, rfl⟩
  have whole := token.feed few
  have parted := @feed_append new (27 :: introducer true :: replicate 128 48) rest
  rw [fed, Option.bind_some] at parted
  cases rest with
  | nil => exact absurd (whole.symm.trans parted) (by simp [KeyDecoder.feed])
  | cons => exact absurd (whole.symm.trans parted) (by simp [KeyDecoder.feed, push, pushState,
    pushSequence, KeyDecoder.failure, sequenceLimit])

end KernalApi.Terminal

