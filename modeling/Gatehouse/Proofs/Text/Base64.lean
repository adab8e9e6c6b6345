import Gatehouse.Text.Base64

set_option autoImplicit false

/-!
# Base64 that is written and read again

Bytes are first cut into numbers of six bits, and each of these has its digit. Nothing else is read
than what is written.
-/

namespace Gatehouse.Text

/-- The numbers of six bits that bytes are cut into. -/
def sextets : List UInt8 → List Nat
  | [] => []
  | [a] => [a.toNat / 4, a.toNat % 4 * 16]
  | [a, b] => [a.toNat / 4, a.toNat % 4 * 16 + b.toNat / 16, b.toNat % 16 * 4]
  | a :: b :: c :: rest =>
    a.toNat / 4 :: (a.toNat % 4 * 16 + b.toNat / 16) :: (b.toNat % 16 * 4 + c.toNat / 64) ::
      c.toNat % 64 :: sextets rest

theorem base64Encode_eq (bytes : List UInt8) :
    base64Encode bytes = (sextets bytes).map base64Digit := by
  induction bytes using sextets.induct with
  | case1 => rfl
  | case2 a => rfl
  | case3 a b => rfl
  | case4 a b c rest ih => rw [base64Encode, sextets, ih]; rfl

theorem sextets_lt (bytes : List UInt8) : ∀ n ∈ sextets bytes, n < 64 := by
  induction bytes using sextets.induct with
  | case1 => simp [sextets]
  | case2 a =>
    have ha := a.toNat_lt
    simp [sextets]
    omega
  | case3 a b =>
    have ha := a.toNat_lt
    have hb := b.toNat_lt
    simp [sextets]
    omega
  | case4 a b c rest ih =>
    have ha := a.toNat_lt
    have hb := b.toNat_lt
    have hc := c.toNat_lt
    simp only [sextets, List.forall_mem_cons]
    exact ⟨by omega, by omega, by omega, by omega, ih⟩

theorem packSextets?_sextets (bytes : List UInt8) : packSextets? (sextets bytes) = some bytes := by
  have hbyte : ∀ {n : Nat} {a : UInt8}, n = a.toNat → n.toUInt8 = a := by
    rintro n a rfl
    exact UInt8.ofNat_toNat
  induction bytes using sextets.induct with
  | case1 => rfl
  | case2 a =>
    have ha := a.toNat_lt
    rw [sextets, packSextets?, if_pos (by omega), hbyte]
    omega
  | case3 a b =>
    have ha := a.toNat_lt
    have hb := b.toNat_lt
    rw [sextets, packSextets?, if_pos (by omega), hbyte, hbyte]
    · omega
    · omega
  | case4 a b c rest ih =>
    have ha := a.toNat_lt
    have hb := b.toNat_lt
    have hc := c.toNat_lt
    rw [sextets, packSextets?, ih, Option.map_some, hbyte, hbyte, hbyte]
    · omega
    · omega
    · omega

theorem eq_sextets_of_packSextets? {numbers : List Nat} {bytes : List UInt8}
    (hlt : ∀ n ∈ numbers, n < 64) (h : packSextets? numbers = some bytes) :
    numbers = sextets bytes := by
  have htoNat {n : Nat} (hn : n < 256) : n.toUInt8.toNat = n := UInt8.toNat_ofNat_of_lt hn
  induction numbers using packSextets?.induct generalizing bytes with
  | case1 =>
    cases h
    rfl
  | case2 => cases h
  | case3 p q hlast =>
    simp only [List.forall_mem_cons] at hlt
    rw [packSextets?, if_pos hlast] at h
    cases h
    rw [sextets, htoNat (by omega)]
    simp only [List.cons.injEq, and_true]
    omega
  | case4 p q hlast =>
    rw [packSextets?, if_neg hlast] at h
    cases h
  | case5 p q r hlast =>
    simp only [List.forall_mem_cons] at hlt
    rw [packSextets?, if_pos hlast] at h
    cases h
    rw [sextets, htoNat (by omega), htoNat (by omega)]
    simp only [List.cons.injEq, and_true]
    omega
  | case6 p q r hlast =>
    rw [packSextets?, if_neg hlast] at h
    cases h
  | case7 p q r s rest ih =>
    simp only [List.forall_mem_cons] at hlt
    obtain ⟨hp, hq, hr, hs, hlt⟩ := hlt
    rw [packSextets?] at h
    obtain ⟨rest, hrest, rfl⟩ := Option.map_eq_some_iff.1 h
    rw [sextets, htoNat (by omega), htoNat (by omega), htoNat (by omega), ← ih hlt hrest]
    simp only [List.cons.injEq, and_true]
    omega

theorem packSextets?_eq_some_iff {numbers : List Nat} {bytes : List UInt8}
    (hlt : ∀ n ∈ numbers, n < 64) :
    packSextets? numbers = some bytes ↔ numbers = sextets bytes := by
  refine ⟨eq_sextets_of_packSextets? hlt, ?_⟩
  rintro rfl
  exact packSextets?_sextets bytes

/-- Where single pieces are read exactly as they are written, so are lists of them. -/
theorem mapM_eq_some_iff {α β : Type} {read : α → Option β} {write : β → α} {p : β → Prop}
    (h : ∀ x y, read x = some y ↔ x = write y ∧ p y) {xs : List α} {ys : List β} :
    xs.mapM read = some ys ↔ xs = ys.map write ∧ ∀ y ∈ ys, p y := by
  induction xs generalizing ys with
  | nil => cases ys <;> simp
  | cons x xs ih =>
    rw [List.mapM_cons, Option.bind_eq_bind, Option.bind_eq_some_iff]
    constructor
    · rintro ⟨y, hy, hlist⟩
      obtain ⟨rest, hrest, hys⟩ := Option.bind_eq_some_iff.1 hlist
      cases hys
      obtain ⟨rfl, hp⟩ := (h x y).1 hy
      obtain ⟨rfl, hps⟩ := ih.1 hrest
      exact ⟨rfl, List.forall_mem_cons.2 ⟨hp, hps⟩⟩
    · rintro ⟨hxs, hps⟩
      cases ys with
      | nil => cases hxs
      | cons y ys =>
        obtain ⟨rfl, rfl⟩ := List.cons.inj hxs
        obtain ⟨hp, hps⟩ := List.forall_mem_cons.1 hps
        refine ⟨y, (h _ _).2 ⟨rfl, hp⟩, ?_⟩
        rw [ih.2 ⟨rfl, hps⟩]
        rfl

theorem base64Value?_base64Digit : ∀ n < 64, base64Value? (base64Digit n) = some n := by
  decide

theorem base64Value?_eq_some_iff (c : Char) (n : Nat) :
    base64Value? c = some n ↔ c = base64Digit n ∧ n < 64 := by
  constructor
  · have hchar {k : Nat} (hk : k = c.toNat) : c = Char.ofNat k := by rw [hk, Char.ofNat_toNat]
    intro h
    rw [base64Value?] at h
    rw [base64Digit]
    split at h
    · cases h
      rw [if_pos (by omega)]
      exact ⟨hchar (by omega), by omega⟩
    split at h
    · cases h
      rw [if_neg (by omega), if_pos (by omega)]
      exact ⟨hchar (by omega), by omega⟩
    split at h
    · cases h
      rw [if_neg (by omega), if_neg (by omega), if_pos (by omega)]
      exact ⟨hchar (by omega), by omega⟩
    split at h
    · next hplus =>
      cases h
      exact ⟨hplus, by decide⟩
    split at h
    · next hslash =>
      cases h
      exact ⟨hslash, by decide⟩
    · cases h
  · rintro ⟨rfl, hn⟩
    exact base64Value?_base64Digit n hn

theorem base64Decode?_eq_some_iff {cs : List Char} {bytes : List UInt8} :
    base64Decode? cs = some bytes ↔ cs = base64Encode bytes := by
  rw [base64Decode?, Option.bind_eq_some_iff, base64Encode_eq]
  constructor
  · rintro ⟨numbers, hnumbers, hbytes⟩
    obtain ⟨rfl, hlt⟩ := (mapM_eq_some_iff base64Value?_eq_some_iff).1 hnumbers
    rw [(packSextets?_eq_some_iff hlt).1 hbytes]
  · rintro rfl
    exact ⟨sextets bytes, (mapM_eq_some_iff base64Value?_eq_some_iff).2 ⟨rfl, sextets_lt bytes⟩,
      packSextets?_sextets bytes⟩

theorem base64Decode?_base64Encode (bytes : List UInt8) :
    base64Decode? (base64Encode bytes) = some bytes :=
  base64Decode?_eq_some_iff.2 rfl

theorem forall_mem_base64Encode (p : Char → Prop) (h : ∀ n < 64, p (base64Digit n))
    (bytes : List UInt8) : ∀ c ∈ base64Encode bytes, p c := by
  intro c hc
  rw [base64Encode_eq] at hc
  obtain ⟨n, hn, rfl⟩ := List.mem_map.1 hc
  exact h n (sextets_lt bytes n hn)

theorem length_base64Encode (bytes : List UInt8) :
    (base64Encode bytes).length = (4 * bytes.length + 2) / 3 := by
  induction bytes using sextets.induct with
  | case1 => rfl
  | case2 a => simp [base64Encode]
  | case3 a b => simp [base64Encode]
  | case4 a b c rest ih =>
    simp only [base64Encode, List.length_cons, ih]
    omega

end Gatehouse.Text
