import AnnotatedRoutes.Text.Utf8
import Mathlib.Data.List.Basic

namespace AnnotatedRoutes.Text

theorem toNat_byte {n : Nat} (h : n < 0x100) : n.toUInt8.toNat = n := by
  simp [Nat.mod_eq_of_lt h]

/-- A byte that lies in its range is taken. -/
theorem takeFollowers_cons {low high : UInt8} {n : Nat} (hn : n < 0x100)
    (hin : low.toNat ≤ n ∧ n ≤ high.toNat) (ranges : List (UInt8 × UInt8)) (value : Nat)
    (bytes : Bytes) :
    takeFollowers ((low, high) :: ranges) value (n.toUInt8 :: bytes) =
      takeFollowers ranges (value * 0x40 + n % 0x40) bytes := by
  have hin : low ≤ n.toUInt8 ∧ n.toUInt8 ≤ high := by
    rw [UInt8.le_iff_toNat_le, UInt8.le_iff_toNat_le, toNat_byte hn]
    exact hin
  rw [takeFollowers, if_pos hin, toNat_byte hn]

section Lead

variable {n : Nat}

theorem leadValue_byte (hn : n < 0x100) :
    leadValue n.toUInt8 =
      if n < 0x80 then n else if n < 0xE0 then n % 0x20 else if n < 0xF0 then n % 0x10
      else n % 0x08 := by
  simp only [leadValue, UInt8.lt_iff_toNat_lt, toNat_byte hn, UInt8.reduceToNat]

theorem followers_byte (hn : n < 0x100) :
    followers n.toUInt8 =
      if n < 0x80 then some []
      else if n < 0xC2 then none
      else if n < 0xE0 then some [(0x80, 0xBF)]
      else if n = 0xE0 then some [(0xA0, 0xBF), (0x80, 0xBF)]
      else if n = 0xED then some [(0x80, 0x9F), (0x80, 0xBF)]
      else if n < 0xF0 then some [(0x80, 0xBF), (0x80, 0xBF)]
      else if n = 0xF0 then some [(0x90, 0xBF), (0x80, 0xBF), (0x80, 0xBF)]
      else if n < 0xF4 then some [(0x80, 0xBF), (0x80, 0xBF), (0x80, 0xBF)]
      else if n = 0xF4 then some [(0x80, 0x8F), (0x80, 0xBF), (0x80, 0xBF)]
      else none := by
  simp only [followers, UInt8.lt_iff_toNat_lt, ← UInt8.toNat_inj, toNat_byte hn,
    UInt8.reduceToNat]

/-- The first of two following bytes lies in the range that the leading byte gives. -/
theorem exists_followers_three (h : 0x800 ≤ n) (h' : n < 0x10000)
    (hvalid : n < 0xD800 ∨ 0xDFFF < n) :
    ∃ low high : UInt8, followers (0xE0 + n / 0x1000).toUInt8 = some [(low, high), (0x80, 0xBF)] ∧
      low.toNat ≤ 0x80 + n / 0x40 % 0x40 ∧ 0x80 + n / 0x40 % 0x40 ≤ high.toNat := by
  rw [followers_byte (by omega), if_neg (by omega), if_neg (by omega), if_neg (by omega)]
  split
  · refine ⟨_, _, rfl, ?_⟩
    simp only [UInt8.reduceToNat]
    omega
  split
  · refine ⟨_, _, rfl, ?_⟩
    simp only [UInt8.reduceToNat]
    omega
  · rw [if_pos (by omega)]
    refine ⟨_, _, rfl, ?_⟩
    simp only [UInt8.reduceToNat]
    omega

/-- The first of three following bytes lies in the range that the leading byte gives. -/
theorem exists_followers_four (h : 0x10000 ≤ n) (h' : n < 0x110000) :
    ∃ low high : UInt8, followers (0xF0 + n / 0x40000).toUInt8 =
        some [(low, high), (0x80, 0xBF), (0x80, 0xBF)] ∧
      low.toNat ≤ 0x80 + n / 0x1000 % 0x40 ∧ 0x80 + n / 0x1000 % 0x40 ≤ high.toNat := by
  rw [followers_byte (by omega), if_neg (by omega), if_neg (by omega), if_neg (by omega),
    if_neg (by omega), if_neg (by omega), if_neg (by omega)]
  split
  · refine ⟨_, _, rfl, ?_⟩
    simp only [UInt8.reduceToNat]
    omega
  split
  · refine ⟨_, _, rfl, ?_⟩
    simp only [UInt8.reduceToNat]
    omega
  · rw [if_pos (by omega)]
    refine ⟨_, _, rfl, ?_⟩
    simp only [UInt8.reduceToNat]
    omega

end Lead

/-- A leading byte and bytes that follow it in their ranges are read as the character whose number
they make. -/
theorem decodeFirst_of_takeFollowers {lead : UInt8} {ranges : List (UInt8 × UInt8)} {c : Char}
    {bytes rest : Bytes} {value : Nat} (hr : followers lead = some ranges)
    (ht : takeFollowers ranges (leadValue lead) bytes = (some value, rest))
    (hc : value = c.toNat) : decodeFirst lead bytes = (some c, rest) := by
  rw [decodeFirst, hr]
  dsimp only
  rw [ht, hc]
  simp

/-- The bytes of a character are read as this character, whatever follows them. -/
theorem exists_decodeFirst (c : Char) (rest : Bytes) :
    ∃ lead bytes, encodeChar c ++ rest = lead :: bytes ∧
      decodeFirst lead bytes = (some c, rest) := by
  have hvalid : c.toNat < 0xD800 ∨ 0xDFFF < c.toNat ∧ c.toNat < 0x110000 := c.valid
  obtain ⟨n, hn⟩ : ∃ n, c.toNat = n := ⟨_, rfl⟩
  have hbyte (m : Nat) : 0x80 + m % 0x40 < 0x100 := by omega
  have hrest (m : Nat) : (0x80 : UInt8).toNat ≤ 0x80 + m % 0x40 ∧
      0x80 + m % 0x40 ≤ (0xBF : UInt8).toNat := by
    simp only [UInt8.reduceToNat]
    omega
  simp only [encodeChar, hn] at hvalid ⊢
  split
  next h1 =>
    have hr : followers n.toUInt8 = some [] := by rw [followers_byte (by omega), if_pos h1]
    refine ⟨_, rest, rfl, decodeFirst_of_takeFollowers hr rfl ?_⟩
    rw [leadValue_byte (by omega), if_pos h1, hn]
  next h1 =>
  split
  next h2 =>
    have hr : followers (0xC0 + n / 0x40).toUInt8 = some [(0x80, 0xBF)] := by
      rw [followers_byte (by omega), if_neg (by omega), if_neg (by omega), if_pos (by omega)]
    refine ⟨_, _, rfl, decodeFirst_of_takeFollowers hr
      (takeFollowers_cons (hbyte n) (hrest n) _ _ _) ?_⟩
    rw [leadValue_byte (by omega), if_neg (by omega), if_pos (by omega), hn]
    omega
  next h2 =>
  split
  next h3 =>
    obtain ⟨low, high, hr, hin⟩ := exists_followers_three (n := n) (by omega) h3 (by omega)
    refine ⟨_, _, rfl, decodeFirst_of_takeFollowers hr
      ((takeFollowers_cons (hbyte _) hin _ _ _).trans
        (takeFollowers_cons (hbyte n) (hrest n) _ _ _)) ?_⟩
    rw [leadValue_byte (by omega), if_neg (by omega), if_neg (by omega), if_pos (by omega), hn]
    omega
  next h3 =>
    obtain ⟨low, high, hr, hin⟩ := exists_followers_four (n := n) (by omega) (by omega)
    refine ⟨_, _, rfl, decodeFirst_of_takeFollowers hr
      ((takeFollowers_cons (hbyte _) hin _ _ _).trans
        ((takeFollowers_cons (hbyte _) (hrest _) _ _ _).trans
          (takeFollowers_cons (hbyte n) (hrest n) _ _ _))) ?_⟩
    rw [leadValue_byte (by omega), if_neg (by omega), if_neg (by omega), if_neg (by omega), hn]
    omega

theorem decodePieces_encode (t : Text) : decodePieces (encode t) = t.map some := by
  induction t with
  | nil => rw [encode, List.flatMap_nil, decodePieces, List.map_nil]
  | cons c t ih =>
    obtain ⟨lead, bytes, he, hd⟩ := exists_decodeFirst c (encode t)
    have hcons : encode (c :: t) = encodeChar c ++ encode t := List.flatMap_cons
    rw [hcons, he, decodePieces, hd, ih, List.map_cons]

/-- Every text is read as it was written. -/
theorem decode?_encode (t : Text) : decode? (encode t) = some t := by
  rw [decode?, decodePieces_encode]
  induction t with
  | nil => rfl
  | cons c t ih =>
    rw [List.map_cons, List.mapM_cons, ih]
    rfl

theorem decodeLossy_encode (t : Text) : decodeLossy (encode t) = t := by
  rw [decodeLossy, decodePieces_encode, List.filterMap_map]
  exact List.filterMap_some

end AnnotatedRoutes.Text
