import MalForms.Proofs.Reader.Reads
import MalForms.Proofs.Text.Lines
import MalForms.Reader.Shared

/-!
# Scanning and decoding a string literal

Two functions go over the text between the quotes of a string literal, each with rules of its own for escapes:
`bodyLength` looks for the closing quote, and `Escape.decode` for the text that is denoted.

* `scan_iff_decode`: both accept the same texts. A literal is read up to its last quote if and only if no quote before
  that stands outside an escape and the decoder finds no fault, and then it is read as what the decoder gives. What the
  scan takes can always be decoded, so a malformed literal is a mismatch and never a fault of the decoder.

* `written_read`: what the encoder writes for a text has no controls, is decoded to that text, and between quotes it is
  read as that text, whatever stands behind the second quote.

Both are compared with `Body`: a body has no bare quote (`bareQuote_body`) and can be decoded (`decode_body`), and the
decoder goes over a text piece by piece, just as a body is built (`body_of_pieces`).
-/

namespace MalForms

open Lexeme
open Escape (quote decode pieces)

/-- Whether a quote stands outside an escape sequence. The text may start right after a backslash, which takes the next
code point with it. -/
def Escape.bareQuote (escaped : Bool) : Text → Bool
  | [] => false
  | c :: rest => if escaped then bareQuote false rest else c = quote || bareQuote (c = '\\') rest

open Escape (bareQuote)

/-! ## Bodies and bare quotes -/

section Bodies

variable {raw : Text}

theorem bareQuote_plain {c : CodePoint} (hc : c ≠ '\\') (t : Text) :
    bareQuote false (c :: t) = (decide (c = quote) || bareQuote false t) := by
  simp [bareQuote, hc]

theorem bareQuote_escape (e : CodePoint) (t : Text) :
    bareQuote false (CodePoint.ofChar '\\' :: e :: t) = bareQuote false t := by
  have hq : CodePoint.ofChar '\\' ≠ quote := by decide
  simp [bareQuote, hq]

/-- Digits are no quotes and start no escape. -/
theorem bareQuote_digits {ds : Text} (hd : ds.all Hex.isDigit = true) (t : Text) :
    bareQuote false (ds ++ t) = bareQuote false t := by
  induction ds with
  | nil => rfl
  | cons d ds ih =>
    rw [List.all_cons, Bool.and_eq_true] at hd
    have hb : d ≠ '\\' := by
      rintro rfl
      exact absurd hd.1 (by decide)
    have hq : d ≠ quote := by
      rintro rfl
      exact absurd hd.1 (by decide)
    rw [List.cons_append, bareQuote_plain hb, ih hd.2, decide_eq_false hq, Bool.false_or]

theorem bareQuote_body (hb : Body raw) : bareQuote false raw = false := by
  induction hb with
  | nil => rfl
  | plain hc hq _ ih => rw [bareQuote_plain hc, ih, decide_eq_false hq, Bool.false_or]
  | simple _ _ ih => rw [bareQuote_escape, ih]
  | unit _ hd _ ih => rw [bareQuote_escape, bareQuote_digits hd, ih]

theorem exists_ok_of_map {ε α β : Type} {f : α → β} {x : Except ε α} {y : β} (h : x.map f = .ok y) :
    ∃ a, x = .ok a := by
  cases x with
  | error e => cases h
  | ok a => exact ⟨a, rfl⟩

/-- A text that has pieces and no bare quote is a body. -/
theorem body_of_pieces {i : Nat} {ps : List Escape.Piece} (h : pieces i raw = .ok ps)
    (hq : bareQuote false raw = false) : Body raw := by
  fun_induction pieces i raw generalizing ps with
  | case1 => exact .nil
  | case2 i c rest hc ih =>
    rw [bareQuote_plain hc, Bool.or_eq_false_iff, decide_eq_false_iff_not] at hq
    obtain ⟨qs, hqs⟩ := exists_ok_of_map h
    exact .plain hc hq.1 (ih hqs hq.2)
  | case4 i c hc e rest d he ih =>
    obtain rfl := not_not.1 hc
    rw [bareQuote_escape] at hq
    obtain ⟨qs, hqs⟩ := exists_ok_of_map h
    exact .simple (by rw [Escape.isSimple, he]; rfl) (ih hqs hq)
  | case6 i c hc e _ he a b c' d rest hd ih =>
    obtain rfl := not_not.1 hc
    obtain rfl := not_not.1 he
    rw [bareQuote_escape] at hq
    have hrest : bareQuote false rest = false := (bareQuote_digits hd rest).symm.trans hq
    obtain ⟨qs, hqs⟩ := exists_ok_of_map h
    have hlen : [a, b, c', d].length = 4 := rfl
    exact .unit hlen hd (ih hqs hrest)
  | case3 | case5 | case7 | case8 => cases h

/-- **The bodies of literals are the texts that can be decoded and have no bare quote.** -/
theorem body_iff : Body raw ↔ bareQuote false raw = false ∧ ∃ s, decode raw = .ok s := by
  constructor
  · intro hb
    exact ⟨bareQuote_body hb, decode_body hb⟩
  · rintro ⟨hq, s, hs⟩
    obtain ⟨ps, hps⟩ := exists_ok_of_map hs
    exact body_of_pieces hps hq

end Bodies

/-! ## The literal and its decoding -/

section Literals

variable {raw t : Text} {x : Scalar} {n : Nat}

/-- What the scan takes before a closing quote can be decoded, and the literal is what comes of it. -/
theorem stringLiteral_of_scan (h : bodyLength .plain t = (n, none)) :
    ∃ s, decode (t.take n) = .ok s ∧ stringLiteral t = .found (.str s) (n + 2) := by
  obtain ⟨b, r, rfl, rfl, hb⟩ := body_of_bodyLength h
  obtain ⟨s, hs⟩ := decode_body hb
  rw [List.take_left]
  exact ⟨s, hs, stringLiteral_body hb hs r⟩

/-- A literal that is scanned up to the last quote of its text has a body between its quotes. -/
theorem body_of_stringLiteral (h : stringLiteral (raw ++ [quote]) = .found x (raw.length + 2)) : Body raw := by
  rcases hl : bodyLength .plain (raw ++ [quote]) with ⟨n, _ | e⟩
  · obtain ⟨s, -, hs⟩ := stringLiteral_of_scan hl
    rw [hs, Match.found.injEq] at h
    obtain ⟨b, r, hr, hlen, hb⟩ := body_of_bodyLength hl
    have hraw : raw = b := (List.append_inj hr (by omega)).1
    rwa [hraw]
  · rw [stringLiteral, hl] at h
    cases h

theorem scalar_literal_iff :
    scalar (quote :: (raw ++ [quote])) = .found x (raw.length + 2) ↔
      Body raw ∧ ∃ s, decode raw = .ok s ∧ x = .str s := by
  rw [scalar_quote]
  constructor
  · intro h
    have hb := body_of_stringLiteral h
    obtain ⟨s, hs⟩ := decode_body hb
    rw [stringLiteral_body hb hs, Match.found.injEq] at h
    exact ⟨hb, s, hs, h.1.symm⟩
  · rintro ⟨hb, s, hs, rfl⟩
    exact stringLiteral_body hb hs []

/-- A literal without a closing quote, or with something that is no escape, ends the reading with a mismatch. -/
theorem step_malformed {stack : List Frame} {c : Cursor} {e : Expectation} (hc : c.skipGap.rest = quote :: t)
    (h : bodyLength .plain t = (n, some e)) :
    step stack c = .done (.failed (.mismatch (c.skipGap.advance (n + 1)).pos [e]) c.skipGap) := by
  apply step_broken
  rw [hc, scalar_quote, stringLiteral, h]

/-- **Scanning and decoding accept the same literals.** The text between two quotes is read as one literal, up to the
second quote, if and only if it has no bare quote and can be decoded, and then as the text it is decoded to. Wherever
the scan of a literal comes to a closing quote, what it took can be decoded; any other literal is a mismatch, whatever
frames are open and wherever it stands, and no source is refused for a fault in decoding. -/
theorem scan_iff_decode :
    (∀ raw x, scalar (quote :: (raw ++ [quote])) = .found x (raw.length + 2) ↔
      bareQuote false raw = false ∧ ∃ s, decode raw = .ok s ∧ x = .str s) ∧
    (∀ t n, bodyLength .plain t = (n, none) →
      ∃ s, decode (t.take n) = .ok s ∧ stringLiteral t = .found (.str s) (n + 2)) ∧
    (∀ stack c t n e, c.skipGap.rest = quote :: t → bodyLength .plain t = (n, some e) →
      step stack c = .done (.failed (.mismatch (c.skipGap.advance (n + 1)).pos [e]) c.skipGap)) ∧
    ∀ source filename fault, read source filename ≠ .error (.misescaped fault) := by
  refine ⟨fun raw x => ?_, fun t n h => ?_, fun stack c t n e hc h => ?_, read_ne_misescaped⟩
  · rw [scalar_literal_iff, body_iff]
    constructor
    · rintro ⟨⟨hq, -⟩, hs⟩
      exact ⟨hq, hs⟩
    · rintro ⟨hq, s, hs, hx⟩
      exact ⟨⟨hq, s, hs⟩, s, hs, hx⟩
  · exact stringLiteral_of_scan h
  · exact step_malformed hc h

/-- A high surrogate before an escaped quote is read and decoded alike, in a literal with more text behind it as well. A
unit that the closing quote cuts short is a mismatch at that quote, also within a list. -/
theorem scan_iff_decode_surrogate :
    let raw : Text := "\\ud83d\\\""
    scalar (quote :: (raw ++ [quote])) = .found (.str [⟨0xD83D, by decide⟩, quote]) (raw.length + 2) ∧
      (∃ s, decode (List.take 8 (raw ++ Text.ofString "\"x")) = .ok s) ∧
      ∃ p c', step [⟨.bracket .list, {}, []⟩] ⟨⟨1, 1, 1⟩, "\"\\u12\")"⟩ =
        .done (.failed (.mismatch p [.hexDigit]) c') ∧ p.offset = 6 := by
  intro raw
  obtain ⟨hiff, hscan, hmalformed, -⟩ := scan_iff_decode
  refine ⟨(hiff raw _).2 ⟨by decide, _, by decide +kernel, rfl⟩, ?_, ?_⟩
  · obtain ⟨s, hs, -⟩ := hscan (raw ++ Text.ofString "\"x") 8 (by decide)
    exact ⟨s, hs⟩
  · exact ⟨_, _, hmalformed _ _ (Text.ofString "\\u12\")") 4 .hexDigit (by decide) (by decide), by decide⟩

end Literals

/-! ## Written literals -/

section Written

open Escape (encode)

variable {s t : Text}

/-- A written literal at the cursor is the next form, and the cursor is left behind its closing quote. -/
theorem next_written {c : Cursor} (hc : c.rest = quote :: (encode s ++ quote :: t)) :
    next [] c = .form (.str s) (c.advance ((encode s).length + 2)) := by
  have hgap : c.skipGap = c := skipGap_eq_self (by rw [hc]; exact afterGap_cons (by decide))
  have hscalar : scalar c.skipGap.rest = .found (.str s) ((encode s).length + 2) := by
    rw [hgap, hc, scalar_written]
  have hnext := next_of_reads (.scalar hscalar (.nil _))
  rwa [hgap] at hnext

/-- A reader at the front of a source that starts with a written literal gives out the text. -/
theorem advance_written {r : Reader} (hsource : r.source = quote :: (encode s ++ quote :: t)) (hfront : r.offset = 0) :
    r.advance = (.form (.str s), { r with offset := (encode s).length + 2 }) := by
  have hcursor : r.cursor = .start r.source := by rw [Reader.cursor, hfront]; rfl
  have hrest : r.cursor.rest = quote :: (encode s ++ quote :: t) := by rw [hcursor]; exact hsource
  have hoffset : (r.cursor.advance ((encode s).length + 2)).pos.offset = (encode s).length + 2 := by
    rw [hcursor, Cursor.advance, Position.offset_after, Cursor.start, hsource]
    simp
  have hfits : SignedIndex.fits r.offset = true := by rw [hfront]; rfl
  rw [Reader.advance, if_pos hfits, next_written hrest]
  simp only [Reader.moveTo, hoffset]
  rfl

/-- **What is written for a text is read as the text.** It has no controls and is decoded to the text. Between quotes it
is the first form of a reader, asked for at once or in a lazy run, and the cursor is left right behind the second
quote. -/
theorem written_read (s t filename : Text) :
    decode (encode s) = .ok s ∧ (∀ c ∈ encode s, 0x20 ≤ c.val ∧ c.val ≠ 0x7F) ∧
      let r : Reader := { source := quote :: (encode s ++ quote :: t), filename }
      let stop : Int := (encode s).length + 2
      (∃ r', r.act .readForm = (.form (.str s), r') ∧ r'.offset = stop ∧ r'.cursor.rest = t) ∧
      r.run [.start, .resume 0] = [(Reader.Answer.index 0, 0), (Reader.Answer.form (.str s), stop)] := by
  refine ⟨decode_encode s, fun c hc => ?_, ?_⟩
  · obtain ⟨hlow, hdel, -⟩ := mem_encode hc
    exact ⟨hlow, hdel⟩
  · intro r stop
    refine ⟨⟨{ r with offset := stop }, ?_, rfl, ?_⟩, ?_⟩
    · rw [Reader.act, advance_written rfl rfl]
    · show List.drop ((encode s).length + 2) (quote :: (encode s ++ quote :: t)) = t
      rw [List.drop_succ_cons, ← List.drop_drop, List.drop_left]
      rfl
    · let r₁ : Reader := { r with runs := [true] }
      have hadvance : r₁.advance = (.form (.str s), { r₁ with offset := stop }) := advance_written rfl rfl
      show [(Reader.Answer.index 0, 0), (r₁.advance.1, (r₁.advance.2.keepRun 0 r₁.advance.1).offset)] = _
      rw [hadvance]
      rfl

/-- A quote behind a backslash, an escape spelled out, a control and two surrogates that stand side by side; what
follows the literal would go on with a name. -/
theorem written_read_spelled :
    let s : Text := ("\\\"\\u0041\x01" : Text) ++ [⟨0xD83D, by decide⟩, ⟨0xDE00, by decide⟩]
    encode s = ("\\\\\\\"\\\\u0041\\u0001" : Text) ++ [⟨0xD83D, by decide⟩, ⟨0xDE00, by decide⟩] ∧
      decode (encode s) = .ok s ∧
      ({ source := quote :: (encode s ++ quote :: "x") } : Reader).run [.start, .resume 0] =
        [(Reader.Answer.index 0, 0), (Reader.Answer.form (.str s), 21)] := by
  intro s
  obtain ⟨hdecode, -, -, hrun⟩ := written_read s "x" "<input>"
  exact ⟨by decide, hdecode, hrun⟩

end Written

end MalForms
