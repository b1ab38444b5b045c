import BusManagement.Text.Braced

/-! Octets and the 16-bit words made of two of them. Words travel with the more significant octet
first; that splitting a word and joining its halves undo each other is what every codec of this
library rests on. Log lines and messages print octets as two upper case hexadecimal digits. -/

namespace BusManagement

abbrev Octets := List UInt8

namespace Octets

def high (w : UInt16) : UInt8 := UInt8.ofNat (w.toNat / 256)

def low (w : UInt16) : UInt8 := UInt8.ofNat (w.toNat % 256)

/-- The word of two octets, the more significant one first. -/
def word (h l : UInt8) : UInt16 := UInt16.ofNat (h.toNat * 256 + l.toNat)

def ofWord (w : UInt16) : Octets := [high w, low w]

theorem toNat_high (w : UInt16) : (high w).toNat = w.toNat / 256 := by
  have := w.toNat_lt
  simp only [high, UInt8.toNat_ofNat']
  omega

theorem toNat_low (w : UInt16) : (low w).toNat = w.toNat % 256 := by
  simp only [low, UInt8.toNat_ofNat']
  omega

theorem toNat_word (h l : UInt8) : (word h l).toNat = h.toNat * 256 + l.toNat := by
  have := h.toNat_lt
  have := l.toNat_lt
  simp only [word, UInt16.toNat_ofNat']
  omega

@[simp] theorem word_high_low (w : UInt16) : word (high w) (low w) = w := by
  apply UInt16.toNat_inj.mp
  rw [toNat_word, toNat_high, toNat_low]
  omega

@[simp] theorem high_word (h l : UInt8) : high (word h l) = h := by
  have := l.toNat_lt
  apply UInt8.toNat_inj.mp
  rw [toNat_high, toNat_word]
  omega

@[simp] theorem low_word (h l : UInt8) : low (word h l) = l := by
  have := l.toNat_lt
  apply UInt8.toNat_inj.mp
  rw [toNat_low, toNat_word]
  omega

@[simp] theorem length_ofWord (w : UInt16) : (ofWord w).length = 2 := rfl

/-- The words that a run of octets starts with, read in pairs; a last single octet is no word. -/
def words : Octets → List UInt16
  | h :: l :: rest => word h l :: words rest
  | _ => []

@[simp] theorem words_flatMap_ofWord (ws : List UInt16) : words (ws.flatMap ofWord) = ws := by
  induction ws with
  | nil => rfl
  | cons w ws ih => simpa [ofWord, words] using ih

def digits (o : UInt8) : String :=
  String.ofList [digit (o.toNat / 16), digit (o.toNat % 16)]
where
  /-- The digits from ten on are the letters from `A`. -/
  digit (n : Nat) : Char := if n < 10 then Char.ofNat (48 + n) else Char.ofNat (55 + n)

def listing (os : Octets) : String := Text.bracketed (os.map digits)

end Octets

end BusManagement
