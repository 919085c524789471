import Mathlib.Data.List.Basic
import Mathlib.Tactic.Common

/-!
# Text in the CESU-8 form

Characters of 16 bits take one to three bytes, and those above come as two surrogates.
Reading is lenient: it also takes forms that are too long, and the usual form of four
bytes. What survives a reading and a writing is the text in its own form.
-/
namespace Cesu8

/-! ### Writing -/

/-- The three-byte form. -/
def triple (cp : Nat) : List UInt8 :=
  [.ofNat (0xE0 + cp / 4096 % 16), .ofNat (0x80 + cp / 64 % 64), .ofNat (0x80 + cp % 64)]

def encode (cp : Nat) : List UInt8 :=
  if cp < 0x80 then [.ofNat cp]
  else if cp < 0x800 then [.ofNat (0xC0 + cp / 64 % 32), .ofNat (0x80 + cp % 64)]
  else if cp < 0x10000 then triple cp
  else
    let x := cp - 0x10000
    [0xED, .ofNat (0xA0 + x / 65536 % 16), .ofNat (0x80 + x / 1024 % 64),
      0xED, .ofNat (0xB0 + x / 64 % 16), .ofNat (0x80 + x % 64)]

/-! ### Reading -/

/-- So many more bytes of a character. -/
def continued : Nat → Nat → List UInt8 → Option (Nat × List UInt8)
  | 0, x, rest => some (x, rest)
  | n + 1, x, y :: rest =>
    if y.toNat / 64 = 2 then continued n (x * 64 + y.toNat % 64) rest else none
  | _ + 1, _, [] => none

/-- One character off the front; nothing at the end, and nothing for bytes that are no text. -/
def readChar : List UInt8 → Option (Nat × List UInt8)
  | [] => none
  | b :: rest =>
    if b.toNat < 0x80 then some (b.toNat, rest)
    else if b.toNat < 0xC0 then none
    else if b.toNat < 0xE0 then continued 1 (b.toNat % 32) rest
    else if b.toNat < 0xF0 then continued 2 (b.toNat % 16) rest
    else if b.toNat < 0xF8 then
      (continued 3 (b.toNat % 8) rest).filter fun c => c.1 ≤ 0x10FFFF
    else none

/-! ### Lengths -/

theorem encode_length (cp : Nat) : (encode cp).length =
    if cp < 0x80 then 1 else if cp < 0x800 then 2 else if cp < 0x10000 then 3 else 6 := by
  unfold encode
  split
  · rfl
  split
  · rfl
  split <;> rfl

theorem encode_length_pos (cp : Nat) : 1 ≤ (encode cp).length := by
  rw [encode_length]
  split_ifs <;> decide

/-- No byte is one that starts four bytes. -/
theorem encode_lt {cp : Nat} {b : UInt8} (member : b ∈ encode cp) : b.toNat < 0xF0 := by
  unfold encode triple at member
  split_ifs at member <;> simp only [List.mem_cons, List.not_mem_nil, or_false] at member
  · subst member
    simp only [UInt8.toNat_ofNat']
    omega
  · rcases member with rfl | rfl <;> simp only [UInt8.toNat_ofNat'] <;> omega
  · rcases member with rfl | rfl | rfl <;> simp only [UInt8.toNat_ofNat'] <;> omega
  · rcases member with rfl | rfl | rfl | rfl | rfl | rfl <;>
      simp only [UInt8.toNat_ofNat', UInt8.reduceToNat] <;> omega

/-- The first byte is ASCII or starts two or three bytes. -/
theorem encode_head {cp : Nat} {b : UInt8} {rest : List UInt8} (starts : encode cp = b :: rest) :
    b.toNat < 0x80 ∨ 0xC0 ≤ b.toNat ∧ b.toNat < 0xF0 := by
  have low : b.toNat < 0xF0 := encode_lt (by rw [starts]; exact List.mem_cons_self)
  unfold encode triple at starts
  split_ifs at starts <;> obtain ⟨rfl, _⟩ := List.cons.inj starts
  · simp only [UInt8.toNat_ofNat']
    omega
  · simp only [UInt8.toNat_ofNat'] at low ⊢
    omega
  · simp only [UInt8.toNat_ofNat'] at low ⊢
    omega
  · decide

/-! ### A reading of what was written -/

theorem continued_succ {n x d : Nat} {rest : List UInt8} (digit : d < 64) :
    continued (n + 1) x (.ofNat (0x80 + d) :: rest) = continued n (x * 64 + d) rest := by
  have value : (UInt8.ofNat (0x80 + d)).toNat = 0x80 + d := by
    rw [UInt8.toNat_ofNat']
    omega
  rw [continued, value, if_pos (by omega)]
  congr 2
  omega

theorem readChar_encode {cp : Nat} (unit : cp < 0x10000) (rest : List UInt8) :
    readChar (encode cp ++ rest) = some (cp, rest) := by
  unfold encode
  split
  · next one =>
    have value : (UInt8.ofNat cp).toNat = cp := by
      rw [UInt8.toNat_ofNat']
      omega
    simp only [List.cons_append, List.nil_append, readChar, value, one, if_true]
  split
  · next notOne two =>
    have value : (UInt8.ofNat (0xC0 + cp / 64 % 32)).toNat = 0xC0 + cp / 64 % 32 := by
      rw [UInt8.toNat_ofNat']
      omega
    simp only [List.cons_append, List.nil_append, readChar, value]
    rw [if_neg (by omega), if_neg (by omega), if_pos (by omega),
      continued_succ (Nat.mod_lt _ (by decide)), continued]
    congr 2
    omega
  · next notOne notTwo =>
    have value : (UInt8.ofNat (0xE0 + cp / 4096 % 16)).toNat = 0xE0 + cp / 4096 % 16 := by
      rw [UInt8.toNat_ofNat']
      omega
    simp only [triple, List.cons_append, List.nil_append, readChar, value]
    rw [if_neg (by omega), if_neg (by omega), if_neg (by omega), if_pos (by omega),
      continued_succ (Nat.mod_lt _ (by decide)), continued_succ (Nat.mod_lt _ (by decide)),
      continued]
    congr 2
    omega

/-! ### What a reading takes -/

theorem continued_eq_some {n x cp : Nat} {src rest : List UInt8}
    (read : continued n x src = some (cp, rest)) : ∃ tail : List UInt8, tail.length = n ∧
      src = tail ++ rest ∧ (∀ y ∈ tail, y.toNat / 64 = 2) ∧
        cp = tail.foldl (fun x y => x * 64 + y.toNat % 64) x := by
  induction n generalizing x src with
  | zero =>
    cases read
    exact ⟨[], rfl, rfl, by simp, rfl⟩
  | succ n ih =>
    cases src with
    | nil => cases read
    | cons y src =>
      rw [continued] at read
      split at read
      · next follows =>
        obtain ⟨tail, length, rfl, all, value⟩ := ih read
        refine ⟨y :: tail, by simp [length], rfl, ?_, value⟩
        simpa [follows] using all
      · cases read

theorem eq_ofNat {b : UInt8} {n : Nat} (value : b.toNat = n) : b = .ofNat n := by
  rw [← value, UInt8.ofNat_toNat]

/-- The bytes a character is read from are at least those it is written in, and as many only if
they are the same, unless the form of four bytes is read. -/
theorem readChar_eq_some {src rest : List UInt8} {cp : Nat} (read : readChar src = some (cp, rest)) :
    ∃ chunk, src = chunk ++ rest ∧ 1 ≤ chunk.length ∧ ((∀ b ∈ chunk, b.toNat < 0xF0) →
      cp < 0x10000 ∧ (encode cp).length ≤ chunk.length ∧
        ((encode cp).length = chunk.length → chunk = encode cp)) := by
  cases src with
  | nil => cases read
  | cons b src =>
    have small := b.toNat_lt
    rw [readChar] at read
    split at read
    · next one =>
      cases read
      refine ⟨[b], rfl, by simp, fun _ => ⟨by omega, ?_, fun _ => ?_⟩⟩
      · rw [encode_length, if_pos one]
        exact Nat.le_refl 1
      · rw [encode, if_pos one, UInt8.ofNat_toNat]
    split at read
    · cases read
    split at read
    · next notOne lead two =>
      obtain ⟨tail, length, rfl, follows, value⟩ := continued_eq_some read
      obtain ⟨y, rfl⟩ := List.length_eq_one_iff.mp length
      have high := follows y (by simp)
      have smallY := y.toNat_lt
      simp only [List.foldl_cons, List.foldl_nil] at value
      refine ⟨[b, y], rfl, by simp, fun _ => ⟨by omega, ?_, ?_⟩⟩
      · rw [encode_length]
        simp only [List.length_cons, List.length_nil]
        split_ifs <;> omega
      · intro same
        rw [encode_length] at same
        split_ifs at same with short two' <;> simp at same
        rw [encode, if_neg short, if_pos two',
          eq_ofNat (show b.toNat = 0xC0 + cp / 64 % 32 by omega),
          eq_ofNat (show y.toNat = 0x80 + cp % 64 by omega)]
    split at read
    · next notOne lead notTwo three =>
      obtain ⟨tail, length, rfl, follows, value⟩ := continued_eq_some read
      obtain ⟨y, z, rfl⟩ := List.length_eq_two.mp length
      have highY := follows y (by simp)
      have highZ := follows z (by simp)
      have smallY := y.toNat_lt
      have smallZ := z.toNat_lt
      simp only [List.foldl_cons, List.foldl_nil] at value
      refine ⟨[b, y, z], rfl, by simp, fun _ => ⟨by omega, ?_, ?_⟩⟩
      · rw [encode_length]
        simp only [List.length_cons, List.length_nil]
        split_ifs <;> omega
      · intro same
        rw [encode_length] at same
        split_ifs at same with short two unit <;> simp at same
        rw [encode, if_neg short, if_neg two, if_pos unit, triple,
          eq_ofNat (show b.toNat = 0xE0 + cp / 4096 % 16 by omega),
          eq_ofNat (show y.toNat = 0x80 + cp / 64 % 64 by omega),
          eq_ofNat (show z.toNat = 0x80 + cp % 64 by omega)]
    split at read
    · next four _ =>
      -- the form of four bytes is shown by its first
      obtain ⟨tail, _, rfl, _⟩ := continued_eq_some (Option.filter_eq_some_iff.mp read).1
      exact ⟨b :: tail, rfl, by simp, fun small => absurd (small b (by simp)) four⟩
    · cases read

/-! ### A character at the end of a text -/

/-- Only the first byte of a character can be ASCII. -/
theorem encode_later {u : Nat} {before after : List UInt8} {b : UInt8}
    (split : encode u = before ++ b :: after) (later : before ≠ []) : 0x80 ≤ b.toNat := by
  cases before with
  | nil => exact absurd rfl later
  | cons c before =>
    have member : b ∈ (encode u).tail := by
      rw [split]
      simp
    unfold encode triple at member
    split_ifs at member <;> simp only [List.tail_cons, List.mem_cons, List.not_mem_nil, or_false]
      at member
    · subst member
      simp only [UInt8.toNat_ofNat']
      omega
    · rcases member with rfl | rfl <;> simp only [UInt8.toNat_ofNat'] <;> omega
    · rcases member with rfl | rfl | rfl | rfl | rfl <;>
        simp only [UInt8.toNat_ofNat', UInt8.reduceToNat] <;> omega

/-- Before an ASCII character a text ends with a whole character. -/
theorem exists_prefix {units : List Nat} {text rest : List UInt8} {b : UInt8}
    (split : units.flatMap encode = text ++ b :: rest) (single : b.toNat < 0x80) :
    ∃ units', units' <+: units ∧ text = units'.flatMap encode := by
  induction units generalizing text with
  | nil => simp at split
  | cons u units ih =>
    rw [List.flatMap_cons] at split
    rcases List.append_eq_append_iff.mp split with ⟨text', rfl, split'⟩ | ⟨rest', inside, tail⟩
    · obtain ⟨units', before, rfl⟩ := ih split'
      exact ⟨u :: units', (List.cons_prefix_cons).mpr ⟨rfl, before⟩, by simp⟩
    · cases rest' with
      | nil =>
        rw [List.append_nil] at inside
        exact ⟨[u], by simp, by simp [inside]⟩
      | cons c rest' =>
        obtain ⟨rfl, _⟩ := List.cons.inj tail
        -- the ASCII byte is inside the character, so it is the first
        by_cases first : text = []
        · exact ⟨[], List.nil_prefix, by simp [first]⟩
        · exact absurd (encode_later inside first) (Nat.not_le.mpr single)

end Cesu8
