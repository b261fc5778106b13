import OttQuic.WebSocket.Command

/-!
# The payload of `quic_send`

A `quic_send` command carries its payload as the string `payload_hex`. `hex_to_bytes` gives every two characters to
`strtol`, which takes a blank or a sign before one digit and stops behind a digit that no other one follows, and
`json_extract_string_field` has cut the string to the buffer before. `quic_send_payload_iff` says when a command
that is accepted has the bytes its string stands for.
-/

namespace OttQuic.WebSocket

open CString

def isHexDigit (c : UInt8) : Bool := (48 ≤ c ∧ c ≤ 57) ∨ (65 ≤ c ∧ c ≤ 70) ∨ (97 ≤ c ∧ c ≤ 102)

def hexValue (c : UInt8) : Nat :=
  if c ≤ 57 then c.toNat - 48 else if c ≤ 70 then c.toNat - 55 else c.toNat - 87

/-- The bytes that hexadecimal digits stand for. -/
def hexBytes : Bytes → Bytes
  | a :: b :: hex => UInt8.ofNat (16 * hexValue a + hexValue b) :: hexBytes hex
  | _ => []

/-- A payload as a client writes it. -/
structure IsPayload (h : Bytes) : Prop where
  even : h.length % 2 = 0
  digits : ∀ c ∈ h, isHexDigit c = true
  fits : h.length ≤ 2 * quicMaxPayload

/-- The command carries what the string stands for. -/
structure Sent (h : Bytes) (cmd : WsCommand) : Prop where
  isPayload : IsPayload h
  payload : cmd.payload = hexBytes h
  length : cmd.payload.length = h.length / 2

/-! ### What is read -/

/-- The string at `payload_hex`, before it is cut; empty when none is found. -/
def payloadHex (text : Bytes) : Bytes :=
  match jsonFindValue text "payload_hex" with
  | none => []
  | some value =>
    if value.head? ≠ some 34 ∨ 34 ∉ value.tail then [] else value.tail.takeWhile fun c => c ≠ 34

/-- `strtol` finds a digit in the two characters. -/
def pairAccepted (a b : UInt8) : Bool := isHexDigit a ∨ ((isSpace a ∨ a = 43 ∨ a = 45) ∧ isHexDigit b)

/-- The number it reads there. -/
def pairValue (a b : UInt8) : Int :=
  if isHexDigit a then if isHexDigit b then 16 * hexValue a + hexValue b else hexValue a
  else if a = 45 then -hexValue b else hexValue b

def pairsAccepted : Bytes → Bool
  | a :: b :: hex => pairAccepted a b && pairsAccepted hex
  | _ => true

def pairBytes : Bytes → Bytes
  | a :: b :: hex => UInt8.ofInt (pairValue a b) :: pairBytes hex
  | _ => []

/-- The string that is left when it has been cut. -/
def cutHex (found : Bytes) : Bytes := found.take (2 * quicMaxPayload)

/-- The string is refused: it is odd, or `strtol` finds no digit in one of the pairs. -/
def Refused (found : Bytes) : Prop := (cutHex found).length % 2 = 1 ∨ pairsAccepted (cutHex found) = false

section

variable {a b : UInt8} {h : Bytes}

theorem digit_sixteen (c : UInt8) : digit 16 c = if isHexDigit c then some (hexValue c) else none := by
  have hlt := c.toNat_lt
  simp only [digit, isHexDigit, hexValue, toLower, UInt8.le_iff_toNat_le]
  split_ifs <;> simp_all <;> omega

theorem isHexDigit_plain (ha : isHexDigit a = true) : isSpace a = false ∧ a ≠ 43 ∧ a ≠ 45 := by
  have hlt := a.toNat_lt
  simp only [isHexDigit, isSpace, decide_eq_true_eq, decide_eq_false_iff_not, UInt8.le_iff_toNat_le, ne_eq,
    ← UInt8.toNat_inj] at ha ⊢
  simp at ha ⊢
  omega

theorem hexValue_lt (ha : isHexDigit a = true) : hexValue a < 16 := by
  have hdigit := digit_sixteen a
  rw [if_pos ha, digit] at hdigit
  split_ifs at hdigit with hrange hletter hlt hlt
  all_goals exact Option.some.inj hdigit ▸ ‹_ < 16›

theorem readNumber_short {s : Bytes} (hspace : s.dropWhile isSpace = s) (hminus : s.head? ≠ some 45)
    (hplus : s.head? ≠ some 43) (hshort : s.length ≤ 2) :
    readNumber 16 s = if (s.head?.bind (digit 16)).isSome then some (false, readDigits 16 0 s) else none := by
  have hrest : s.drop 2 = [] := List.drop_eq_nil_of_le hshort
  simp [readNumber, hspace, hminus, hplus, hrest]

theorem readNumber_one (b : UInt8) : readNumber 16 [b] = if isHexDigit b then some (false, hexValue b) else none := by
  have hdigit := digit_sixteen b
  cases hb : isHexDigit b with
  | true =>
      obtain ⟨hspace, hplus, hminus⟩ := isHexDigit_plain hb
      rw [readNumber_short (by simp [hspace]) (by simpa using hminus) (by simpa using hplus) (by simp)]
      simp [hdigit, hb, readDigits]
  | false =>
      cases hspace : isSpace b with
      | true => simp [readNumber, hspace]
      | false =>
          by_cases hsign : b = 45 ∨ b = 43
          · simp [readNumber, hspace, hsign]
          · simp [readNumber, hspace, hsign, hdigit, hb]

theorem readNumber_space (ha : isSpace a = true) (b : UInt8) : readNumber 16 [a, b] = readNumber 16 [b] := by
  simp only [readNumber, List.dropWhile_cons_of_pos ha]

theorem readNumber_sign (ha : a = 43 ∨ a = 45) (b : UInt8) :
    readNumber 16 [a, b] = if isHexDigit b then some (decide (a = 45), hexValue b) else none := by
  have hspace : isSpace a = false := by rcases ha with rfl | rfl <;> decide
  have hdigit := digit_sixteen b
  rcases ha with rfl | rfl
  all_goals
    cases hb : isHexDigit b with
    | true => simp [readNumber, hspace, hdigit, hb, readDigits]
    | false => simp [readNumber, hspace, hdigit, hb]

theorem readNumber_pair (a b : UInt8) :
    readNumber 16 [a, b] =
      if pairAccepted a b then some (decide (a = 45), (pairValue a b).natAbs) else none := by
  have hdigita := digit_sixteen a
  have hdigitb := digit_sixteen b
  cases ha : isHexDigit a with
  | true =>
      obtain ⟨hspace, hplus, hminus⟩ := isHexDigit_plain ha
      rw [readNumber_short (by simp [hspace]) (by simpa using hminus) (by simpa using hplus) (by simp)]
      cases hb : isHexDigit b with
      | true =>
          have habs : (16 * (hexValue a : Int) + hexValue b).natAbs = hexValue a * 16 + hexValue b := by omega
          simp [pairAccepted, pairValue, readDigits, hdigita, hdigitb, ha, hb, hminus, habs]
      | false => simp [pairAccepted, pairValue, readDigits, hdigita, hdigitb, ha, hb, hminus]
  | false =>
      by_cases hsign : a = 43 ∨ a = 45
      · rw [readNumber_sign hsign]
        rcases hsign with rfl | rfl
        · simp [pairAccepted, pairValue, ha]
        · simp [pairAccepted, pairValue, ha]
      · obtain ⟨hplus, hminus⟩ := not_or.mp hsign
        cases hspace : isSpace a with
        | true =>
            rw [readNumber_space hspace, readNumber_one]
            simp [pairAccepted, pairValue, ha, hspace, hminus]
        | false =>
            rw [readNumber_short (by simp [hspace]) (by simpa using hminus) (by simpa using hplus) (by simp)]
            simp [pairAccepted, hdigita, ha, hspace, hplus, hminus]

theorem pairValue_range (h : pairAccepted a b = true) :
    if a = 45 then -16 < pairValue a b ∧ pairValue a b ≤ 0 else 0 ≤ pairValue a b ∧ pairValue a b < 256 := by
  unfold pairValue
  cases ha : isHexDigit a with
  | true =>
      have hlt := hexValue_lt ha
      rw [if_neg (isHexDigit_plain ha).2.2, if_pos rfl]
      split_ifs with hb
      · have hlt' := hexValue_lt hb
        omega
      · omega
  | false =>
      have hb : isHexDigit b = true := by
        simp only [pairAccepted, ha, Bool.false_eq_true, false_or, decide_eq_true_eq] at h
        exact h.2
      have hlt := hexValue_lt hb
      simp only [Bool.false_eq_true, if_false]
      split_ifs
      · omega
      · omega

theorem strtol_pair (a b : UInt8) : strtol 16 [a, b] = if pairAccepted a b then some (pairValue a b) else none := by
  rw [strtol, readNumber_pair]
  cases haccepted : pairAccepted a b with
  | false => rfl
  | true =>
      have hrange := pairValue_range haccepted
      by_cases hminus : a = 45
      · rw [if_pos hminus] at hrange
        simp only [hminus, if_true, Option.map_some, decide_true, Option.some.injEq] at hrange ⊢
        omega
      · rw [if_neg hminus] at hrange
        simp only [hminus, if_true, Option.map_some, decide_false, Bool.false_eq_true, if_false, Option.some.injEq]
        omega

theorem hexPairs_cons (a b : UInt8) (hex : Bytes) :
    hexPairs (a :: b :: hex) =
      match strtol 16 [a, b], hexPairs hex with
      | some value, some rest => some (UInt8.ofInt value :: rest)
      | _, _ => none := by
  exact Eq.refl _

theorem hexPairs_eq (hex : Bytes) : hexPairs hex = if pairsAccepted hex then some (pairBytes hex) else none := by
  induction hex using pairsAccepted.induct with
  | case1 a b hex ih =>
      rw [hexPairs_cons, strtol_pair, ih, pairsAccepted, pairBytes]
      cases pairAccepted a b with
      | false => simp
      | true =>
          cases pairsAccepted hex with
          | false => simp
          | true => simp
  | case2 hex hshort =>
      match hex with
      | [] => rfl
      | [a] => rfl
      | a :: b :: hex => exact absurd rfl (hshort a b hex)

theorem cutHex_length_le (found : Bytes) : (cutHex found).length ≤ 2 * quicMaxPayload := List.length_take_le _ _

theorem hexToBytes_cutHex (found : Bytes) :
    (Refused found → hexToBytes (cutHex found) quicMaxPayload = none) ∧
      (¬ Refused found → hexToBytes (cutHex found) quicMaxPayload = some (pairBytes (cutHex found))) := by
  have hle := cutHex_length_le found
  have hfits : ¬ (cutHex found).length / 2 > quicMaxPayload := by omega
  rw [hexToBytes, Refused]
  by_cases hempty : (cutHex found).length = 0
  · have hnil : cutHex found = [] := List.length_eq_zero_iff.mp hempty
    rw [if_pos hempty, hnil]
    simp [pairsAccepted, pairBytes]
  · rw [if_neg hempty, if_neg hfits, hexPairs_eq]
    by_cases hodd : (cutHex found).length % 2 = 1
    · rw [if_pos (by omega)]
      simp [hodd]
    · rw [if_neg (by omega)]
      simp [hodd]

theorem jsonExtractStringField_payloadHex (text : Bytes) :
    (jsonExtractStringField text "payload_hex" (quicMaxPayload * 2 + 1)).getD [] = cutHex (payloadHex text) := by
  rw [jsonExtractStringField, payloadHex]
  cases jsonFindValue text "payload_hex" with
  | none => rfl
  | some value =>
      by_cases hquote : value.head? = some 34
      · have hcut : quicMaxPayload * 2 + 1 - 1 = 2 * quicMaxPayload := by omega
        simp only [hquote, ne_eq, not_true_eq_false, if_false, false_or]
        cases hend : strchr 34 value.tail with
        | none => rw [Option.map_none, Option.getD_none, if_pos (strchr_eq_none.mp hend), cutHex, List.take_nil]
        | some rest =>
            have hmem : 34 ∈ value.tail := by
              by_contra hnot
              rw [strchr_eq_none.mpr hnot] at hend
              cases hend
            rw [Option.map_some, Option.getD_some, take_strchr hend, if_neg (not_not_intro hmem), cutHex, hcut]
      · simp [hquote, cutHex]

theorem hexBytes_length (h : Bytes) : (hexBytes h).length = h.length / 2 := by
  induction h using hexBytes.induct with
  | case1 a b h ih =>
      rw [hexBytes, List.length_cons, ih, List.length_cons, List.length_cons]
      omega
  | case2 h hshort =>
      match h with
      | [] => rfl
      | [a] => simp [hexBytes]
      | a :: b :: h => exact absurd rfl (hshort a b h)

theorem pairBytes_digits (hdigits : ∀ c ∈ h, isHexDigit c = true) :
    pairsAccepted h = true ∧ pairBytes h = hexBytes h := by
  induction h using hexBytes.induct with
  | case1 a b h ih =>
      have ha := hdigits a (by simp)
      have hb := hdigits b (by simp)
      obtain ⟨haccepted, hbytes⟩ := ih fun c hc => hdigits c (by simp [hc])
      have hvalue : UInt8.ofInt (pairValue a b) = UInt8.ofNat (16 * hexValue a + hexValue b) := by
        have hlt := hexValue_lt ha
        have hlt' := hexValue_lt hb
        have hmod : ((16 * (hexValue a : Int) + hexValue b) % 2 ^ 8).toNat = 16 * hexValue a + hexValue b := by omega
        rw [pairValue, if_pos ha, if_pos hb, UInt8.ofInt, hmod]
      rw [pairsAccepted, haccepted, pairBytes, hvalue, hbytes, hexBytes]
      exact ⟨by simp [pairAccepted, ha], rfl⟩
  | case2 h hshort =>
      match h with
      | [] => exact ⟨rfl, rfl⟩
      | [a] => exact ⟨rfl, rfl⟩
      | a :: b :: h => exact absurd rfl (hshort a b h)

theorem IsPayload.cutHex_eq (hpayload : IsPayload h) : cutHex h = h := List.take_of_length_le hpayload.fits

theorem IsPayload.accepted (hpayload : IsPayload h) : ¬ Refused h ∧ pairBytes (cutHex h) = hexBytes h := by
  obtain ⟨haccepted, hbytes⟩ := pairBytes_digits hpayload.digits
  rw [Refused, hpayload.cutHex_eq, haccepted, hpayload.even]
  exact ⟨by simp, hbytes⟩

theorem Sent.of_payload {cmd : WsCommand} (hpayload : IsPayload h) (hcmd : cmd.payload = hexBytes h) : Sent h cmd :=
  ⟨hpayload, hcmd, by rw [hcmd, hexBytes_length]⟩

/-- The command without its payload. -/
def quicSendCommand (text : Bytes) (connectionId : UInt64) : WsCommand :=
  { WsCommand.ofType .quicSend with
    connectionId := connectionId
    streamId := (jsonExtractUint32Field text "stream_id").getD 1
    offset := (jsonExtractUint32Field text "offset").getD 0 }

theorem parseCommand_quicSend {text : Bytes}
    (htype : jsonExtractStringField text "type" 32 = some (ascii "quic_send")) :
    parseCommand text = (jsonExtractUint64Field text "connection_id").bind fun connectionId =>
      (hexToBytes (cutHex (payloadHex text)) quicMaxPayload).map fun payload =>
        { quicSendCommand text connectionId with payload := payload } := by
  have hping : ascii "quic_send" ≠ ascii "ping" := by decide
  rw [parseCommand, htype, ← jsonExtractStringField_payloadHex]
  dsimp only
  rw [if_neg hping, if_pos rfl]
  cases jsonExtractUint64Field text "connection_id" with
  | none => rfl
  | some connectionId =>
      cases jsonExtractStringField text "payload_hex" (quicMaxPayload * 2 + 1) with
      | none => rfl
      | some hex => rfl

end

/-- **`quic_send` sends the payload that was written, or refuses it**, for every text that is taken as `quic_send` and
every string `h`, exactly if the command is rejected or `h` is a payload (and, where another string is found at
`payload_hex`, that one is read as the same bytes). -/
theorem quic_send_payload_iff (text h : Bytes)
    (htype : jsonExtractStringField text "type" 32 = some (ascii "quic_send")) :
    (∀ cmd, parseCommand text = some cmd → Sent h cmd) ↔
      jsonExtractUint64Field text "connection_id" = none ∨ Refused (payloadHex text) ∨
        IsPayload h ∧ (payloadHex text ≠ h → pairBytes (cutHex (payloadHex text)) = hexBytes h) := by
  obtain ⟨hrefused, haccepted⟩ := hexToBytes_cutHex (payloadHex text)
  rw [parseCommand_quicSend htype]
  cases jsonExtractUint64Field text "connection_id" with
  | none => simp
  | some connectionId =>
      by_cases hcut : Refused (payloadHex text)
      · simp [hrefused hcut, hcut]
      · rw [haccepted hcut]
        constructor
        · intro hsent
          obtain ⟨hpayload, hbytes, -⟩ := hsent _ rfl
          exact .inr (.inr ⟨hpayload, fun _ => hbytes⟩)
        · rintro (hnone | hcut' | ⟨hpayload, hother⟩) cmd hcmd
          · cases hnone
          · exact absurd hcut' hcut
          · obtain rfl := Option.some.inj hcmd
            refine Sent.of_payload hpayload ?_
            by_cases hfound : payloadHex text = h
            · rw [hfound]
              exact hpayload.accepted.2
            · exact hother hfound

def sampleQuicSend (hex : String) : Bytes :=
  ascii "\x7b\"type\":\"quic_send\",\"connection_id\":7,\"payload_hex\":\"" ++ ascii hex ++ ascii "\"\x7d"

/-- A payload of two bytes. -/
theorem quic_send_payload_iff_sample :
    ∃ cmd, parseCommand (sampleQuicSend "4a4B") = some cmd ∧ Sent (ascii "4a4B") cmd := by
  have hlength : (ascii "4a4B").length = 4 := by decide
  have hdigits : (ascii "4a4B").all isHexDigit = true := by decide
  have hpayload : IsPayload (ascii "4a4B") := by
    refine ⟨by decide, List.all_eq_true.mp hdigits, ?_⟩
    rw [hlength, quicMaxPayload]
    omega
  have hparse : parseCommand (sampleQuicSend "4a4B") = some ⟨.quicSend, 7, 1, 0, [74, 75], 0, 0, 0, 0, 0⟩ := by
    decide +kernel
  have hfound : payloadHex (sampleQuicSend "4a4B") = ascii "4a4B" := by decide +kernel
  have hsent := (quic_send_payload_iff _ (ascii "4a4B") (by decide +kernel)).mpr
    (.inr (.inr ⟨hpayload, fun hother => absurd hfound hother⟩))
  exact ⟨_, hparse, hsent _ hparse⟩

/-- A digit with a letter behind it and a digit behind a sign are sent as bytes. -/
theorem junk_is_sent :
    ∃ cmd, parseCommand (sampleQuicSend "4g+1") = some cmd ∧ cmd.payload = [4, 1] ∧ ¬ Sent (ascii "4g+1") cmd := by
  refine ⟨⟨.quicSend, 7, 1, 0, [4, 1], 0, 0, 0, 0, 0⟩, by decide +kernel, rfl, fun hsent => ?_⟩
  exact absurd (hsent.isPayload.digits 103 (by decide)) (by decide)

end OttQuic.WebSocket
