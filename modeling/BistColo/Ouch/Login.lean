import BistColo.Ouch.Sides
/-!
# The resume cursor on the wire

A LoginAccepted states the session and the next number, and a later
LoginRequest is to ask for both. The decoder takes them exactly
(`accepting_cursor`). The encoder prints the number into a buffer
that is one byte short: the field ends with the NUL and says a tenth of the
number (`strtoull_loginSequence`), so no number makes the round trip
(`resume_never_round_trips`).
-/

open StreamKit

namespace BistColo.Ouch

open Soup

namespace OuchSession

/-- The twenty digits of a number. -/
def sequenceDigits (n : UInt64) : Field 20 := ⟨padded 20 n, length_padded n⟩

/-- `s` after the LoginAccepted that assigns `sid` and states `n`. -/
def accepting (s : OuchSession) (sid : Field 10) (n : UInt64) : OuchSession :=
  let p := loginAccepted sid (sequenceDigits n)
  (s.dispatchPacket p.packetType p.payload (UInt64.ofNat p.payload.length)).2

theorem strtoull_padded (n : UInt64) (rest : Bytes) : strtoull (padded 20 n ++ 0 :: rest) = n := by
  have hne : padded 20 n ≠ [] := List.ne_nil_of_length_pos (by rw [length_padded]; decide)
  rw [strtoull_digits (isDigit_padded 20 n) hne (by rw [readDigits_padded]; exact n.toNat_lt), readDigits_padded,
    UInt64.ofNat_toNat]

/-- The decoder takes session and number as they are stated. -/
theorem accepting_cursor (s : OuchSession) (sid : Field 10) (n : UInt64) :
    (s.accepting sid n).assignedSession = sid.bytes ∧ (s.accepting sid n).nextInboundSeq = n := by
  have hlen : (loginAccepted sid (sequenceDigits n)).payload.length = 30 := by
    rw [loginAccepted, List.length_append, sid.length_bytes, Field.length_bytes]
  have hsid : peek (sid.bytes ++ (sequenceDigits n).bytes) 0 sessionLen = sid.bytes := by
    rw [peek_inside (by simp [sessionLen]), List.drop_zero]
    exact List.take_left' sid.length_bytes
  have hseq : peek (sid.bytes ++ (sequenceDigits n).bytes) sessionLen sequenceLen = padded 20 n := by
    rw [peek_inside (by simp [sessionLen, sequenceLen]), List.drop_left' (by rw [sid.length_bytes]; rfl)]
    exact List.take_of_length_le (by rw [Field.length_bytes, sequenceLen])
  have he : s.accepting sid n = s.countRecv.acceptLogin (peek (sid.bytes ++ (sequenceDigits n).bytes) 0 sessionLen)
      (strtoull (peek (sid.bytes ++ (sequenceDigits n).bytes) sessionLen sequenceLen ++ [0])) := by
    rw [accepting, hlen]
    rfl
  rw [he, hsid, hseq, strtoull_padded]
  exact ⟨rfl, rfl⟩

/-! ## The encoder -/

/-- Nineteen digits and the NUL. -/
theorem loginSequence_bytes (n : UInt64) : (loginSequence n).bytes = (padded 20 n).take 19 ++ [0] := by
  change snprintf (List.replicate 20 0) (padded 20 n) = _
  rw [snprintf_cut (by rw [length_padded, List.length_replicate]) (by decide), List.length_replicate]

/-- What the field says is a tenth of the number. -/
theorem strtoull_loginSequence (n : UInt64) : strtoull ((loginSequence n).bytes ++ [0]) = n / 10 := by
  obtain ⟨b, hb⟩ : ∃ b, padded 20 n = (padded 20 n).take 19 ++ [b] := by
    have hlen : ((padded 20 n).drop 19).length = 1 := by rw [List.length_drop, length_padded]
    obtain ⟨b, hb⟩ := List.length_eq_one_iff.1 hlen
    exact ⟨b, by rw [← hb, List.take_append_drop]⟩
  have hdigit : isDigit b = true := isDigit_padded 20 n b (by rw [hb]; simp)
  have hd : ∀ c ∈ (padded 20 n).take 19, isDigit c = true := fun c hc => isDigit_padded 20 n c (List.mem_of_mem_take hc)
  -- the number is ten times what the first nineteen digits say, and the last digit
  have hval : n.toNat = readDigits 0 ((padded 20 n).take 19) * 10 + (b.toNat - 48) := by
    rw [← readDigits_padded 20 n]
    conv_lhs => rw [hb, readDigits_append]
    rfl
  have hsmall : b.toNat - 48 < 10 := by
    simp only [isDigit, Bool.and_eq_true, decide_eq_true_eq, UInt8.le_iff_toNat_le, UInt8.reduceToNat] at hdigit
    omega
  have hdiv : readDigits 0 ((padded 20 n).take 19) = n.toNat / 10 := by omega
  have hlt := n.toNat_lt
  have hne : (padded 20 n).take 19 ≠ [] :=
    List.ne_nil_of_length_pos (by rw [List.length_take, length_padded]; decide)
  rw [loginSequence_bytes, List.append_assoc, List.singleton_append,
    strtoull_digits hd hne (by omega), hdiv, ← UInt64.toNat_inj, UInt64.toNat_div, UInt64.toNat_ofNat']
  exact Nat.mod_eq_of_lt (by omega)

/-- A request that asks for exactly the session `sid` and the number `n`. -/
structure AsksFor (req : LoginRequest) (sid : Field 10) (n : UInt64) : Prop where
  session : req.requestedSession.bytes = sid.bytes
  digits : ∀ b ∈ req.requestedSequenceNumber.bytes, isDigit b = true
  sequence : strtoull (req.requestedSequenceNumber.bytes ++ [0]) = n

/-- A new session on `socket` that is to resume where `s` stands. -/
def resuming (s : OuchSession) (socket : TcpSocket) (clock : Clock) (lp : LoginParams) (hb : UInt32) : OuchSession :=
  create socket clock { lp with requestedSession := s.assignedSession, requestedSequence := s.nextInboundSeq } hb

/-- `begin_login` writes one packet, the session's LoginRequest. -/
theorem requests_beginLogin {s : OuchSession} (hopen : s.socket.isOpen = true) :
    requests s.beginLogin.2.log = requests s.log ++ [(loginRequest s.login).bytes] := by
  rw [beginLogin, if_neg (by simp [hopen]), requests_writeBytes]
  simp [emit, setState, requests]

/-- The session that resumes after a LoginAccepted for `sid` and `n` writes a
LoginRequest with that session, but with no twenty digits for the number. -/
theorem resume_never_round_trips (s : OuchSession) (sid : Field 10) (n : UInt64) (socket : TcpSocket) (clock : Clock)
    (lp : LoginParams) (hb : UInt32) (hopen : socket.isOpen = true) :
    let new := (s.accepting sid n).resuming socket clock lp hb
    requests new.beginLogin.2.log = [(loginRequest new.login).bytes] ∧
      (loginRequest new.login).requestedSession.bytes = sid.bytes ∧
      ¬ AsksFor (loginRequest new.login) sid n := by
  intro new
  obtain ⟨hsid, hn⟩ := accepting_cursor s sid n
  refine ⟨requests_beginLogin (s := new) hopen, ?_, ?_⟩
  · change (Field.pad 32 10 (s.accepting sid n).assignedSession).bytes = sid.bytes
    rw [hsid]
    exact Field.pad_full 32 sid.length_bytes
  · rintro ⟨-, hdigits, -⟩
    have hnul : (0 : UInt8) ∈ (loginSequence new.login.requestedSequence).bytes := by
      rw [loginSequence_bytes]
      simp
    exact absurd (hdigits 0 hnul) (by decide)

/-- A session that was told it is MOCKSESS01 and at 42, as it resumes. -/
def resumed : OuchSession :=
  ((create {} { reading := fun _ => 0 } { username := ascii "OUCH01", password := ascii "secret" }
    Soup.heartbeatSendNs).accepting (Field.pad 32 10 (ascii "MOCKSESS01")) 42).resuming {} { reading := fun _ => 0 }
      { username := ascii "OUCH01", password := ascii "secret" } Soup.heartbeatSendNs

theorem resume_never_round_trips_resumed :
    requests resumed.beginLogin.2.log = [(loginRequest resumed.login).bytes] ∧
      (loginRequest resumed.login).requestedSession.bytes = ascii "MOCKSESS01" ∧
      ¬ AsksFor (loginRequest resumed.login) (Field.pad 32 10 (ascii "MOCKSESS01")) 42 :=
  resume_never_round_trips
    (create {} { reading := fun _ => 0 } { username := ascii "OUCH01", password := ascii "secret" } Soup.heartbeatSendNs)
    (Field.pad 32 10 (ascii "MOCKSESS01")) 42 {} { reading := fun _ => 0 }
    { username := ascii "OUCH01", password := ascii "secret" } Soup.heartbeatSendNs rfl

/-- Asked to resume at 42, the session asks for 4. -/
theorem resume_loses_digit :
    requests resumed.beginLogin.2.log = [(loginRequest resumed.login).bytes] ∧
      (loginRequest resumed.login).requestedSequenceNumber.bytes = ascii "0000000000000000004" ++ [0] ∧
      strtoull ((loginRequest resumed.login).requestedSequenceNumber.bytes ++ [0]) = 4 ∧
      ¬ AsksFor (loginRequest resumed.login) (Field.pad 32 10 (ascii "MOCKSESS01")) 42 := by
  refine ⟨by decide, by decide, by decide, ?_⟩
  intro h
  exact absurd h.sequence (by decide)

end OuchSession

end BistColo.Ouch
