import GPush.PushServer.Decimal
import GPush.Utility.Split

/-!
# Addresses of the local network

`isLocalIP` is there for an address in text and for an address as a number.  The text is split
at the dots, and its first field is looked at.
-/

namespace GPush.PushServer

open GPush.Containers GPush.LoopBuf GPush.Utility

/-- The byte `p[i]` of an `in_addr_t`.  The low byte is the first one in memory. -/
def addrByte (addr : UInt32) (i : Nat) : UInt8 := (addr >>> UInt32.ofNat (8 * i)).toUInt8

/-- The character `'.'`. -/
def dot : UInt8 := 46

/-- `ipStr`. -/
def ipStr (addr : UInt32) : Bytes :=
  decimal (addrByte addr 0).toNat ++ [dot] ++ decimal (addrByte addr 1).toNat ++ [dot] ++
    decimal (addrByte addr 2).toNat ++ [dot] ++ decimal (addrByte addr 3).toNat

/-- `isLocalIP`, for a string.  `none` says that `ret[0]` is read from an empty vector. -/
def isLocalIPStr (ip : Bytes) : Option Bool :=
  (split ip [] [dot] (List.cons_ne_nil _ _))[0]?.map fun first =>
    first == ascii "10" || first == ascii "172" || first == ascii "192"

/-- `isLocalIP`, for a number. -/
def isLocalIP (addr : UInt32) : Bool :=
  let fr1 := addrByte addr 0
  let fr2 := addrByte addr 1
  if fr1 = 10 then
    true
  else if fr1 = 172 then
    decide (16 ≤ fr2) && decide (fr2 ≤ 31)
  else if fr1 = 192 then
    fr2 == 168
  else
    false

/-! ## The first field -/

/-- There is a first field when there is another character than the dot. -/
theorem isSome_isLocalIPStr {ip : Bytes} : (isLocalIPStr ip).isSome ↔ ∃ a ∈ ip, a ≠ dot := by
  rw [isLocalIPStr, split_singleton, List.nil_append, Option.isSome_map, ← fields_ne_nil_iff]
  cases fields ip dot with
  | nil => simp
  | cons first rest => simp

/-- The numbers of an address are written differently. -/
theorem decimal_byte_inj {a b : UInt8} :
    decimal (a.toNat : Int) = decimal (b.toNat : Int) ↔ a = b := by
  constructor
  · intro same
    have upper := UInt8.toNat_lt a
    have upper' := UInt8.toNat_lt b
    have read := congrArg atoi same
    rw [atoi_decimal (by omega) (by omega), atoi_decimal (by omega) (by omega)] at read
    have numbers : (a.toNat : Int) = b.toNat := by
      rwa [Int.bmod_eq_of_le (by omega) (by omega), Int.bmod_eq_of_le (by omega) (by omega)]
        at read
    exact UInt8.toNat_inj.mp (Int.natCast_inj.mp numbers)
  · rintro rfl
    rfl

theorem dot_notMem_decimal (b : UInt8) : dot ∉ decimal (b.toNat : Int) := by
  intro member
  rcases mem_decimal member with sign | digit
  · cases sign
  · cases digit

/-- The first field of a written address is its first number. -/
theorem isLocalIPStr_ipStr (addr : UInt32) :
    isLocalIPStr (ipStr addr) =
      some (addrByte addr 0 == 10 || addrByte addr 0 == 172 || addrByte addr 0 == 192) := by
  have written : ∃ back, ipStr addr = decimal (addrByte addr 0).toNat ++ dot :: back := by
    simp only [ipStr, List.append_assoc, List.singleton_append]
    exact ⟨_, rfl⟩
  obtain ⟨back, writtenEq⟩ := written
  have ten : ascii "10" = decimal ((10 : UInt8).toNat : Int) := by decide
  have one72 : ascii "172" = decimal ((172 : UInt8).toNat : Int) := by decide
  have one92 : ascii "192" = decimal ((192 : UInt8).toNat : Int) := by decide
  have beq : ∀ b : UInt8, (decimal ((addrByte addr 0).toNat : Int) == decimal (b.toNat : Int)) =
      (addrByte addr 0 == b) := by
    intro b
    rw [Bool.eq_iff_iff, beq_iff_eq, beq_iff_eq, decimal_byte_inj]
  rw [isLocalIPStr, split_singleton, List.nil_append, writtenEq,
    fields_eq_pieces, pieces_append_cons (dot_notMem_decimal _),
    List.filter_cons_of_pos (by simp [decimal_ne_nil]), List.filter_nil, List.singleton_append,
    List.getElem?_cons_zero, Option.map_some, ten, one72, one92, beq, beq, beq]

/-- The two agree on an address unless it is one that begins with `172` or `192` and is not
private. -/
theorem isLocalIP_agrees_iff (addr : UInt32) :
    isLocalIPStr (ipStr addr) = some (isLocalIP addr) ↔
      (addrByte addr 0 = 172 → 16 ≤ addrByte addr 1 ∧ addrByte addr 1 ≤ 31) ∧
        (addrByte addr 0 = 192 → addrByte addr 1 = 168) := by
  rw [isLocalIPStr_ipStr, isLocalIP, Option.some.injEq]
  split_ifs with isTen is172 is192
  · simp [isTen]
  · simp [is172]
  · simp [is192]
  · simp [isTen, is172, is192]

/-- The address `172.15.0.1` is local as a string and not as a number. -/
theorem isLocalIP_disagrees :
    isLocalIPStr (ipStr 0x01000FAC) ≠ some (isLocalIP 0x01000FAC) := by
  rw [isLocalIPStr_ipStr]
  decide

end GPush.PushServer
