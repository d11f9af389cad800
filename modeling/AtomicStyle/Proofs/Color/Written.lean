import AtomicStyle.Color.Reading
import AtomicStyle.Proofs.Decimal.Numeral
import AtomicStyle.Proofs.Text.Words
import Mathlib.Tactic.IntervalCases

/-!
# Written colours are colours

Both forms in which a colour is written are read as colours again. The hexadecimal form is read as
the opaque colour of the same channels (`parse_hex`), and the form with four numbers as a colour of
the same channels whatever the opacity is, also one that is no number (`exists_parse_rgba`). A
channel is read in binary32 as a share of 255; for each of the 256 the nearest byte to its share is
the channel itself (`byteOf_share`).
-/

namespace AtomicStyle.Color

open Decimal

section Hex

theorem hexValue?_hexDigit {n : Nat} (h : n < 16) : hexValue? (hexDigit n) = some n := by
  interval_cases n <;> rfl

theorem hexDigit_ne_plus {n : Nat} (h : n < 16) : hexDigit n ≠ '+' := by
  interval_cases n <;> decide

theorem isBlank_hexDigit {n : Nat} (h : n < 16) : Text.isBlank (hexDigit n) = false := by
  interval_cases n <;> rfl

theorem byte?_hexByte (b : UInt8) :
    byte? (hexDigit (b.toNat / 16)) (hexDigit (b.toNat % 16)) = some b := by
  have hlt : b.toNat < 256 := b.toNat_lt
  have hhigh : b.toNat / 16 < 16 := by omega
  have hlow : b.toNat % 16 < 16 := by omega
  have hsum : 16 * (b.toNat / 16) + b.toNat % 16 = b.toNat := by omega
  have hbyte : UInt8.ofNat (16 * (b.toNat / 16) + b.toNat % 16) = b := by
    rw [hsum, UInt8.ofNat_toNat]
  unfold byte?
  rw [hexValue?_hexDigit hlow, hexValue?_hexDigit hhigh, Option.bind_eq_bind, Option.bind_some,
    if_neg (hexDigit_ne_plus hhigh), Option.bind_some, hbyte]

theorem ofHex?_hexBytes (red green blue : UInt8) :
    ofHex? (hexByte red ++ hexByte green ++ hexByte blue) = some (opaqueOf red green blue) := by
  have hopaque : Float.ofNat 255 / 255 = 1 := by decide +kernel
  simp [hexByte, ofHex?, byte?_hexByte, ofBytes, opaqueOf, hopaque]

theorem trim_hexChars (c : Color) : Text.trim c.hexChars = c.hexChars := by
  have hlast : c.blue.toNat % 16 < 16 := Nat.mod_lt _ (by decide)
  apply Text.trim_eq_self
  · intro d hd
    obtain rfl : '#' = d := by simpa [hexChars] using hd
    rfl
  · simp [hexChars, hexByte, isBlank_hexDigit hlast]

theorem parse_hex (c : Color) : parse c.hex = .ok (opaqueOf c.red c.green c.blue) := by
  have hread : readTrimmed c.hexChars = .ok (.ok (opaqueOf c.red c.green c.blue)) := by
    have hname : Text.lower c.hexChars ≠ "transparent".toList := by
      intro h
      have := congrArg List.head? h
      simp [hexChars, Text.lower] at this
    unfold readTrimmed
    rw [if_neg hname]
    simp only [hexChars, ofHex?_hexBytes]
    rfl
  simp only [parse, hex, String.toList_ofList, trim_hexChars, hread]

end Hex

section Rgba

/-- The share of a channel leads back to the channel, in binary32 too: there are 256 of them. -/
theorem byteOf_share (channel : UInt8) :
    byteOf (share ((⟨channel.toNat, 0⟩ : Decimal).toFloat32 / 255)) = channel := by
  have hbytes : ∀ n < 256,
      byteOf (share ((⟨n, 0⟩ : Decimal).toFloat32 / 255)) = UInt8.ofNat n := by
    decide +kernel
  rw [hbytes channel.toNat channel.toNat_lt, UInt8.ofNat_toNat]

theorem quantity?_of_read? {cs : List Char} {n : Numeral} (hcs : ∀ c ∈ cs, Numeral.written c)
    (h : Numeral.read? cs = some n) : quantity? cs = some (n.toFloat32, false) := by
  have hend : Text.dropEnd? ['%'] cs = none := by
    unfold Text.dropEnd?
    rw [if_neg]
    rw [List.isSuffixOf_iff_suffix]
    rintro ⟨front, rfl⟩
    exact absurd (hcs '%' (by simp)) (by decide)
  simp [quantity?, hend, Numeral.float32?, h]

theorem quantity?_digits (n : Nat) :
    quantity? (digits n) = some ((⟨n, 0⟩ : Decimal).toFloat32, false) :=
  quantity?_of_read? (fun _ => Numeral.written_of_mem_digits) (Numeral.read?_digits n)

theorem exists_quantity?_chars (x : Float) : ∃ y, quantity? (plain.chars x) = some (y, false) := by
  obtain ⟨n, hn⟩ := Numeral.exists_read?_chars x
  exact ⟨n.toFloat32, quantity?_of_read? (fun _ => Numeral.written_of_mem_chars) hn⟩

/-- The characters between arguments. -/
def isSeparator : Char → Bool := fun c => c ∈ [',', '/', ' ', '\t', '\n', '\x0c', '\r']

/-- An argument as numbers are written: not empty, and without separators. -/
structure Argument (cs : List Char) : Prop where
  ne_nil : cs ≠ []
  written : ∀ c ∈ cs, Numeral.written c

theorem not_separator_of_written {c : Char} (h : Numeral.written c) : isSeparator c = false := by
  rw [isSeparator, decide_eq_false_iff_not]
  intro hmem
  simp only [List.mem_cons, List.not_mem_nil, or_false] at hmem
  rcases hmem with rfl | rfl | rfl | rfl | rfl | rfl | rfl <;> exact absurd h (by decide)

theorem Argument.words_comma {cs : List Char} (h : Argument cs) (rest : List Char) :
    Text.words isSeparator (cs ++ ',' :: ' ' :: rest) = cs :: Text.words isSeparator rest := by
  have hletters : ∀ c ∈ cs, isSeparator c = false := fun c hc =>
    not_separator_of_written (h.written c hc)
  rw [Text.words_append h.ne_nil hletters (by decide), Text.words_cons_of_separator (by decide)]

theorem Argument.words_end {cs : List Char} (h : Argument cs) :
    Text.words isSeparator cs = [cs] :=
  Text.words_word h.ne_nil fun c hc => not_separator_of_written (h.written c hc)

theorem argument_digits (n : Nat) : Argument (digits n) :=
  ⟨Nat.toDigits_ne_nil, fun _ => Numeral.written_of_mem_digits⟩

theorem argument_chars (x : Float) : Argument (plain.chars x) := by
  refine ⟨?_, fun _ => Numeral.written_of_mem_chars⟩
  intro hnil
  obtain ⟨n, hn⟩ := Numeral.exists_read?_chars x
  have hread : Numeral.read? [] = none := rfl
  rw [hnil, hread] at hn
  cases hn

theorem arguments?_of_words {body x y z a : List Char} {alpha : Float32} {percent : Bool}
    (h : Text.words isSeparator body = [x, y, z, a]) (hq : quantity? a = some (alpha, percent)) :
    arguments? body = some ⟨x, y, z, clamp 0 1 alpha⟩ := by
  unfold isSeparator at h
  simp only [arguments?, h, hq, Option.map_some]

/-- What stands between the brackets of a colour that is written with all four numbers. -/
def rgbaBody (c : Color) : List Char :=
  digits c.red.toNat ++ ',' :: ' ' :: (digits c.green.toNat ++ ',' :: ' ' ::
    (digits c.blue.toNat ++ ',' :: ' ' :: plain.chars c.alpha))

theorem exists_arguments?_rgbaBody (c : Color) :
    ∃ alpha, arguments? (rgbaBody c) =
      some ⟨digits c.red.toNat, digits c.green.toNat, digits c.blue.toNat, alpha⟩ := by
  obtain ⟨alpha, halpha⟩ := exists_quantity?_chars c.alpha
  refine ⟨clamp 0 1 alpha, arguments?_of_words ?_ halpha⟩
  rw [rgbaBody, (argument_digits _).words_comma, (argument_digits _).words_comma,
    (argument_digits _).words_comma, (argument_chars _).words_end]

theorem rgbaChars_eq (c : Color) :
    c.rgbaChars = ['r', 'g', 'b', 'a', '('] ++ (rgbaBody c ++ [')']) := by
  simp [rgbaChars, rgbaBody]

theorem getLast?_rgbaChars (c : Color) : c.rgbaChars.getLast? = some ')' := by
  rw [rgbaChars_eq, ← List.append_assoc]
  exact List.getLast?_concat

theorem call?_rgbaChars (c : Color) :
    call? c.rgbaChars = some (['r', 'g', 'b', 'a'], rgbaBody c) := by
  have hspan : c.rgbaChars.span (· ≠ '(') =
      (['r', 'g', 'b', 'a'], '(' :: (rgbaBody c ++ [')'])) := by
    rw [rgbaChars_eq, List.span_eq_takeWhile_dropWhile]
    simp
  unfold call?
  rw [hspan, getLast?_rgbaChars]
  simp

theorem rgbShares?_digits (red green blue : Nat) (alpha : Float32) :
    rgbShares? ⟨digits red, digits green, digits blue, alpha⟩ =
      some ⟨share ((⟨red, 0⟩ : Decimal).toFloat32 / 255),
        share ((⟨green, 0⟩ : Decimal).toFloat32 / 255),
        share ((⟨blue, 0⟩ : Decimal).toFloat32 / 255)⟩ := by
  simp [rgbShares?, quantity?_digits]

theorem functionShares_rgba {a : Arguments} {s : Shares} (h : rgbShares? a = some s) :
    functionShares ['r', 'g', 'b', 'a'] a = .ok (.ok s) := by
  simp only [functionShares, h]
  rfl

theorem trim_rgbaChars (c : Color) : Text.trim c.rgbaChars = c.rgbaChars := by
  apply Text.trim_eq_self
  · intro d hd
    obtain rfl : 'r' = d := by simpa [rgbaChars_eq] using hd
    rfl
  · intro d hd
    obtain rfl : ')' = d := by simpa [getLast?_rgbaChars] using hd
    rfl

theorem exists_parse_rgba (c : Color) :
    ∃ alpha, parse c.rgba = .ok ⟨c.red, c.green, c.blue, alpha⟩ := by
  obtain ⟨alpha, hargs⟩ := exists_arguments?_rgbaBody c
  have hname : Text.lower (Text.trimEnd ['r', 'g', 'b', 'a']) = ['r', 'g', 'b', 'a'] := by decide
  have hword : Text.lower c.rgbaChars ≠ "transparent".toList := by
    intro h
    have := congrArg List.head? h
    rw [rgbaChars_eq] at this
    simp [Text.lower] at this
  have hfunction : ofFunction ['r', 'g', 'b', 'a'] (rgbaBody c) =
      .ok (.ok ⟨c.red, c.green, c.blue, Float.ofNat (byteOf alpha).toNat / 255⟩) := by
    simp only [ofFunction, hargs, functionShares_rgba (rgbShares?_digits _ _ _ _)]
    simp only [bind, Except.bind, pure, Except.pure, Except.map, ofShares, byteOf_share]
  have hread : readTrimmed c.rgbaChars =
      .ok (.ok ⟨c.red, c.green, c.blue, Float.ofNat (byteOf alpha).toNat / 255⟩) := by
    unfold readTrimmed
    rw [if_neg hword]
    split
    · rename_i digits h
      rw [rgbaChars_eq] at h
      simp at h
    · rw [call?_rgbaChars]
      simp only [hname, hfunction]
  refine ⟨Float.ofNat (byteOf alpha).toNat / 255, ?_⟩
  simp only [parse, rgba, String.toList_ofList, trim_rgbaChars, hread]

end Rgba

end AtomicStyle.Color
