import Teitunnel.Ranges
import Teitunnel.Lib.Trim

/-!
# Ranges that a tunnel takes over

Only the first address of a range is looked at.  From eight bits of an IPv4 prefix and sixteen of
an IPv6 prefix on, that tells of every address of the range what it tells of the first, but for
two: the link-local block of IPv4, which is as narrow as sixteen bits, and the broadcast address,
which is last.
-/

namespace Teitunnel

open IpText Text

/-! ## Network parts -/

/-- What agrees in a longer network part agrees in a shorter one. -/
lemma shiftRight_mono {w k m : ℕ} {a b : BitVec w} (hkm : k ≤ m) (h : a >>> k = b >>> k) :
    a >>> m = b >>> m := by
  obtain ⟨j, rfl⟩ := Nat.exists_eq_add_of_le hkm
  rw [BitVec.shiftRight_add, BitVec.shiftRight_add, h]

/-- Clearing the host part keeps the network part. -/
lemma shiftRight_trunc {w : ℕ} (a : BitVec w) (k : ℕ) : a >>> k <<< k >>> k = a >>> k := by
  ext i hi
  simp only [BitVec.getElem_ushiftRight, BitVec.getLsbD_shiftLeft, BitVec.getLsbD_ushiftRight]
  have hlt : ¬ k + i < k := by omega
  by_cases hin : k + i < w
  · simp [hin, hlt]
  · simp [hin, BitVec.getLsbD_of_ge a (k + i) (not_lt.mp hin)]

/-- A first address without a network part is zero. -/
lemma eq_zero_of_trunc {w k : ℕ} {a : BitVec w} (htrunc : a >>> k <<< k = a) (h : a >>> k = 0) :
    a = 0 := by
  rw [← htrunc, h]
  exact BitVec.zero_shiftLeft _

/-- Two network parts share an address if they agree in the shorter one. -/
lemma exists_shared {w k m : ℕ} (a b : BitVec w) :
    (∃ x : BitVec w, x >>> k = a >>> k ∧ x >>> m = b >>> m) ↔
      (m ≤ k ∧ a >>> k = b >>> k) ∨ (k ≤ m ∧ b >>> m = a >>> m) := by
  constructor
  · rintro ⟨x, hk, hm⟩
    rcases le_total m k with hle | hle
    · exact .inl ⟨hle, hk.symm.trans (shiftRight_mono hle hm)⟩
    · exact .inr ⟨hle, hm.symm.trans (shiftRight_mono hle hk)⟩
  · rintro (⟨-, h⟩ | ⟨-, h⟩)
    · exact ⟨b, h.symm, rfl⟩
    · exact ⟨a, rfl, h.symm⟩

namespace PrivateNetwork

/-- Ranges overlap if they share an address. -/
lemma overlaps_iff (n other : PrivateNetwork) :
    n.overlaps other = true ↔ ∃ a, n.net.Has a ∧ other.net.Has a := by
  rw [overlaps, Bool.or_eq_true]
  rcases n.net with ⟨a, l⟩ | ⟨a, l⟩ <;> rcases other.net with ⟨b, m⟩ | ⟨b, m⟩
  · have hshared := @exists_shared 32 (32 - l.val) (32 - m.val) a b
    have hl : 32 - m.val ≤ 32 - l.val ↔ l.val ≤ m.val := by omega
    have hm : 32 - l.val ≤ 32 - m.val ↔ m.val ≤ l.val := by omega
    rw [hl, hm] at hshared
    simp only [IpNet.contains, Bool.and_eq_true, decide_eq_true_iff, beq_iff_eq]
    rw [← hshared]
    exact ⟨fun ⟨x, hx⟩ => ⟨.v4 x, hx⟩, fun ⟨x, hx⟩ => by
      cases x with
      | v4 x => exact ⟨x, hx⟩
      | v6 x => exact absurd hx.1 (by simp [IpNet.Has])⟩
  · simp only [IpNet.contains, Bool.false_eq_true, or_self, false_iff]
    rintro ⟨x, hx, hx'⟩
    cases x <;> simp [IpNet.Has] at hx hx'
  · simp only [IpNet.contains, Bool.false_eq_true, or_self, false_iff]
    rintro ⟨x, hx, hx'⟩
    cases x <;> simp [IpNet.Has] at hx hx'
  · have hshared := @exists_shared 128 (128 - l.val) (128 - m.val) a b
    have hl : 128 - m.val ≤ 128 - l.val ↔ l.val ≤ m.val := by omega
    have hm : 128 - l.val ≤ 128 - m.val ↔ m.val ≤ l.val := by omega
    rw [hl, hm] at hshared
    simp only [IpNet.contains, Bool.and_eq_true, decide_eq_true_iff, beq_iff_eq]
    rw [← hshared]
    exact ⟨fun ⟨x, hx⟩ => ⟨.v6 x, hx⟩, fun ⟨x, hx⟩ => by
      cases x with
      | v4 x => exact absurd hx.1 (by simp [IpNet.Has])
      | v6 x => exact ⟨x, hx⟩⟩

end PrivateNetwork

/-! ## Unroutable addresses in a range -/

/-- The IPv4 range has link-local addresses without being in their block, or has the broadcast
address without being just that. -/
def IpNet.TakesOver : IpNet → Prop
  | .v4 a len =>
      len.val < 16 ∧ a >>> (32 - len.val) = 0xA9FE0000#32 >>> (32 - len.val) ∨
        len.val < 32 ∧ a >>> (32 - len.val) = 0xFFFFFFFF#32 >>> (32 - len.val)
  | .v6 .. => False

instance (net : IpNet) : Decidable net.TakesOver := by
  cases net <;> (rw [IpNet.TakesOver]; infer_instance)

/-- Only host bits are cleared. -/
lemma takesOver_trunc (net : IpNet) : net.trunc.TakesOver ↔ net.TakesOver := by
  cases net with
  | v4 a len => rw [IpNet.trunc, IpNet.TakesOver, IpNet.TakesOver, shiftRight_trunc]
  | v6 a len => rfl

namespace PrivateNetwork

/-- A range whose first address is routable, from eight bits on. -/
lemma routable_v4 {a : BitVec 32} {len : Fin 33} (htrunc : a >>> (32 - len.val) <<< (32 - len.val) = a)
    (hlen : 8 ≤ len.val) (hbase : ¬ (IpAddr.v4 a).Unroutable) :
    (∀ x : BitVec 32, x >>> (32 - len.val) = a >>> (32 - len.val) → ¬ (IpAddr.v4 x).Unroutable) ↔
      ¬ (IpNet.v4 a len).TakesOver := by
  simp only [IpAddr.Unroutable, not_or] at hbase
  obtain ⟨hloop, hlocal, hmulti, hzero, hall⟩ := hbase
  rw [IpNet.TakesOver]
  constructor
  · intro hnone htakes
    rcases htakes with ⟨-, hin⟩ | ⟨-, hin⟩
    · exact hnone _ hin.symm (.inr (.inl (by decide)))
    · exact hnone _ hin.symm (.inr (.inr (.inr (.inr rfl))))
  · intro htakes x hx hbad
    rw [not_or, not_and, not_and] at htakes
    rcases hbad with h | h | h | h | h
    · rw [shiftRight_mono (show 32 - len.val ≤ 24 by omega) hx] at h
      exact hloop h
    · rcases Nat.lt_or_ge len.val 16 with hshort | hlong
      · refine htakes.1 hshort ?_
        rw [← hx]
        exact shiftRight_mono (show 16 ≤ 32 - len.val by omega) (h.trans (by decide))
      · rw [shiftRight_mono (show 32 - len.val ≤ 16 by omega) hx] at h
        exact hlocal h
    · rw [shiftRight_mono (show 32 - len.val ≤ 28 by omega) hx] at h
      exact hmulti h
    · rw [h] at hx
      exact hzero (eq_zero_of_trunc htrunc (hx.symm.trans BitVec.zero_ushiftRight))
    · rcases Nat.lt_or_ge len.val 32 with hshort | hlong
      · rw [h] at hx
        exact htakes.2 hshort hx.symm
      · have hk : 32 - len.val = 0 := by omega
        rw [hk, BitVec.ushiftRight_zero, BitVec.ushiftRight_zero] at hx
        exact hall (hx ▸ h)

/-- Of IPv6 it tells of every address. -/
lemma routable_v6 {a : BitVec 128} {len : Fin 129}
    (htrunc : a >>> (128 - len.val) <<< (128 - len.val) = a) (hlen : 16 ≤ len.val)
    (hbase : ¬ (IpAddr.v6 a).Unroutable) (x : BitVec 128)
    (hx : x >>> (128 - len.val) = a >>> (128 - len.val)) : ¬ (IpAddr.v6 x).Unroutable := by
  simp only [IpAddr.Unroutable, not_or] at hbase
  obtain ⟨hloop, hlocal, hmulti, hzero⟩ := hbase
  have hnonzero : x >>> (128 - len.val) ≠ 0 := by
    intro h
    exact hzero (eq_zero_of_trunc htrunc (hx.symm.trans h))
  rintro (h | h | h | h)
  · rcases Nat.lt_or_ge len.val 128 with hshort | hlong
    · refine hnonzero ?_
      rw [h]
      have hone : (1 : BitVec 128) >>> 1 = 0#128 >>> 1 := by decide
      exact (shiftRight_mono (show 1 ≤ 128 - len.val by omega) hone).trans BitVec.zero_ushiftRight
    · have hk : 128 - len.val = 0 := by omega
      rw [hk, BitVec.ushiftRight_zero, BitVec.ushiftRight_zero] at hx
      exact hloop (hx ▸ h)
  · rw [shiftRight_mono (show 128 - len.val ≤ 118 by omega) hx] at h
    exact hlocal h
  · rw [shiftRight_mono (show 128 - len.val ≤ 120 by omega) hx] at h
    exact hmulti h
  · rw [h] at hnonzero
    exact hnonzero BitVec.zero_ushiftRight

end PrivateNetwork

/-! ## Ranges as text -/

lemma address_valid (net : IpNet) : net.address.Valid := by
  cases net with
  | v4 a len => exact ⟨length_parts 256 4 _, parts_lt (by decide)⟩
  | v6 a len => exact ⟨length_parts 65536 8 _, parts_lt (by decide)⟩

lemma isWhitespace_addressChar {c : Char} (h : IsAddressChar c) : isWhitespace c = false := by
  rcases h with rfl | rfl | ⟨d, hd, rfl⟩
  · decide
  · decide
  · have hdigits : ∀ d < 16, isWhitespace (Nat.digitChar d) = false := by decide
    exact hdigits d hd

lemma trim_writeNet (net : IpNet) : trim (writeNet net) = writeNet net := by
  refine trim_eq_self fun c hc => ?_
  rw [writeNet, String.toList_append, String.toList_append, String.toList_ofList, List.mem_append,
    List.mem_append, toList_toString] at hc
  rcases hc with (hc | hc) | hc
  · exact isWhitespace_addressChar (write_chars hc)
  · obtain rfl := List.mem_singleton.mp hc
    decide
  · exact isWhitespace_addressChar (writeNumber_chars (by decide) (by decide) hc)

/-- Ranges are written as an address and a length, and read from them. -/
structure NetText [External] : Prop where
  print (net : IpNet) : External.printNet net = writeNet net
  parse {net : IpNet} {text : String} (h : IpText.parse text.toList = some net.address) :
    External.parseNet (text ++ "/" ++ toString net.prefixLen) = some net

namespace PrivateNetwork

variable [External] {input : String} {n : PrivateNetwork}

/-- An accepted range is the one of the text, cut to its network part. -/
lemma parse_ok (h : PrivateNetwork.parse input = .ok n) :
    ∃ net, External.parseNet (trim input) = some net ∧ n.net = net.trunc := by
  rw [PrivateNetwork.parse] at h
  cases hnet : External.parseNet (trim input) with
  | none => simp [hnet] at h
  | some net =>
      simp only [hnet] at h
      split_ifs at h
      exact ⟨net, rfl, (congrArg PrivateNetwork.net (Except.ok.inj h)).symm⟩

/-- What is printed is read back. -/
lemma parse_toText (htext : NetText) (n : PrivateNetwork) :
    PrivateNetwork.parse n.toText = .ok n := by
  have haddress : IpText.parse (String.ofList (write n.net.address)).toList =
      some n.net.address := by
    rw [String.toList_ofList]
    exact parse_write (address_valid n.net)
  have hread : External.parseNet (writeNet n.net) = some n.net := htext.parse haddress
  rw [PrivateNetwork.parse, toText, htext.print, trim_writeNet, hread]
  simp only [n.truncated, n.narrow, n.routable, Bool.false_eq_true, dite_false, dite_true]

/-- No address of the range is unroutable; what is printed is read back; and it overlaps the ranges
that it shares an address with. -/
structure Sound (n : PrivateNetwork) : Prop where
  routable : ∀ a, n.net.Has a → ¬ a.Unroutable
  printed : PrivateNetwork.parse n.toText = .ok n
  overlaps (other : PrivateNetwork) :
    n.overlaps other = true ↔ ∃ a, n.net.Has a ∧ other.net.Has a

omit [External] in
lemma routable_iff (n : PrivateNetwork) :
    (∀ a, n.net.Has a → ¬ a.Unroutable) ↔ ¬ n.net.TakesOver := by
  obtain ⟨net, htrunc, hnarrow, hroutable⟩ := n
  cases net with
  | v4 a len =>
      have hbase : ¬ (IpAddr.v4 a).Unroutable := by
        rw [IpNet.unroutable] at hroutable
        simpa [IpAddr.Unroutable, not_or, and_assoc] using hroutable
      have hlen : 8 ≤ len.val := by
        rw [IpNet.tooBroad, decide_eq_false_iff_not] at hnarrow
        omega
      rw [← routable_v4 (IpNet.v4.inj htrunc).1 hlen hbase]
      constructor
      · exact fun h x hx => h (.v4 x) hx
      · intro h x hx
        cases x with
        | v4 x => exact h x hx
        | v6 x => exact absurd hx (by simp [IpNet.Has])
  | v6 a len =>
      have hbase : ¬ (IpAddr.v6 a).Unroutable := by
        rw [IpNet.unroutable] at hroutable
        simp only [Bool.or_eq_false_iff, beq_eq_false_iff_ne] at hroutable
        rintro (h | h | h | h)
        exacts [hroutable.1.1.1 h, hroutable.2 h, hroutable.1.1.2 h, hroutable.1.2 h]
      have hlen : 16 ≤ len.val := by
        rw [IpNet.tooBroad, decide_eq_false_iff_not] at hnarrow
        omega
      refine iff_of_true ?_ (by simp [IpNet.TakesOver])
      intro x hx
      cases x with
      | v4 x => exact absurd hx (by simp [IpNet.Has])
      | v6 x => exact routable_v6 (IpNet.v6.inj htrunc).1 hlen hbase x hx

end PrivateNetwork

/-- An accepted range is sound exactly if it doesn't take over the link-local block, or the
broadcast address, of IPv4. -/
theorem privateNetwork_sound_iff [External] (htext : NetText) {input : String} {net : IpNet}
    {n : PrivateNetwork} (hnet : External.parseNet (trim input) = some net)
    (h : PrivateNetwork.parse input = .ok n) : n.Sound ↔ ¬ net.TakesOver := by
  obtain ⟨net', hnet', htrunc⟩ := PrivateNetwork.parse_ok h
  rw [hnet] at hnet'
  obtain rfl := Option.some.inj hnet'
  rw [← takesOver_trunc, ← htrunc, ← PrivateNetwork.routable_iff]
  exact ⟨fun hsound => hsound.routable,
    fun hroutable => ⟨hroutable, n.parse_toText htext, n.overlaps_iff⟩⟩

/-! ## Ranges at hand -/

section ranges

local instance rangeReference : External :=
  { reference with parseNet := readNet, printNet := writeNet }

lemma ofAddress_address (net : IpNet) : IpNet.ofAddress net.prefixLen net.address = some net := by
  cases net with
  | v4 a len =>
      rw [IpNet.prefixLen, IpNet.address, IpNet.ofAddress, dif_pos len.isLt,
        value_parts (by simpa using a.isLt), BitVec.ofNat_toNat, BitVec.setWidth_eq]
  | v6 a len =>
      rw [IpNet.prefixLen, IpNet.address, IpNet.ofAddress, dif_pos len.isLt,
        value_parts (by simpa using a.isLt), BitVec.ofNat_toNat, BitVec.setWidth_eq]

lemma readNet_address {net : IpNet} {text : String}
    (h : IpText.parse text.toList = some net.address) :
    readNet (text ++ "/" ++ toString net.prefixLen) = some net := by
  have hslash : '/' ∉ (toString net.prefixLen).toList := by
    rw [toList_toString]
    intro hc
    rcases writeNumber_chars (by decide) (by decide) hc with h | h | ⟨d, hd, h⟩
    · exact absurd h (by decide)
    · exact absurd h (by decide)
    · have hdigit : ∀ d < 16, '/' ≠ Nat.digitChar d := by decide
      exact hdigit d hd h
  have hlen : net.prefixLen < 129 := by
    cases net with
    | v4 a len => exact len.isLt.trans (by decide)
    | v6 a len => exact len.isLt
  have hnumber := @readNumber_write 10 3 129 net.prefixLen (by decide) (by decide) (by decide)
    (hlen.trans (by decide)) hlen false [] (fun c hc => absurd hc (by simp))
  rw [List.append_nil] at hnumber
  have hcut : rsplitOnce '/' (text ++ "/" ++ toString net.prefixLen) =
      some (text, toString net.prefixLen) := rsplitOnce_append hslash
  rw [readNet, hcut]
  dsimp only
  rw [h, toList_toString, hnumber]
  exact ofAddress_address net

lemma netText_reference : NetText where
  print _ := rfl
  parse := readNet_address

/-- An office's range. -/
theorem office_sound : ∃ n, PrivateNetwork.parse " 192.168.1.7/24" = .ok n ∧ n.Sound := by
  have hnet : External.parseNet (trim " 192.168.1.7/24") = some (.v4 0xC0A80107 24) := by
    decide +kernel
  obtain ⟨n, hn⟩ : ∃ n, PrivateNetwork.parse " 192.168.1.7/24" = .ok n :=
    ⟨⟨.v4 0xC0A80100 24, by decide, by decide, by decide⟩, by decide +kernel⟩
  exact ⟨n, hn, (privateNetwork_sound_iff netText_reference hnet hn).mpr (by decide)⟩

/-- A range with the link-local block in it is accepted. -/
theorem wideRange_notSound : ∃ n, PrivateNetwork.parse "169.0.0.0/8" = .ok n ∧
    n.net.Has (.v4 0xA9FE0001) ∧ (IpAddr.v4 0xA9FE0001).Unroutable ∧ ¬ n.Sound := by
  have hhas : (IpNet.v4 0xA9000000 8).Has (.v4 0xA9FE0001) := by
    show 0xA9FE0001#32 >>> 24 = 0xA9000000#32 >>> 24
    decide
  have hbad : (IpAddr.v4 0xA9FE0001).Unroutable := .inr (.inl (by decide))
  refine ⟨⟨.v4 0xA9000000 8, by decide, by decide, by decide⟩, by decide +kernel, hhas, hbad, ?_⟩
  exact fun hsound => hsound.routable _ hhas hbad

end ranges

end Teitunnel
