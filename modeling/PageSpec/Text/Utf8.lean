import PageSpec.Decimal.Power
/-!
Texts from bytes. A byte that starts no character is replaced, together with the well-formed bytes
of a cut-off character after it, by one replacement character.
-/
namespace PageSpec.Text

private def continues (low high : Nat) (b : UInt8) : Bool := low ≤ b.toNat && b.toNat ≤ high

/-- The number of bytes that follow a first byte, and the range of the first of them. -/
private def shape (b : Nat) : Option (Nat × Nat × Nat) :=
  if 0xC2 ≤ b ∧ b ≤ 0xDF then some (1, 0x80, 0xBF)
  else if b = 0xE0 then some (2, 0xA0, 0xBF)
  else if b = 0xED then some (2, 0x80, 0x9F)
  else if 0xE1 ≤ b ∧ b ≤ 0xEF then some (2, 0x80, 0xBF)
  else if b = 0xF0 then some (3, 0x90, 0xBF)
  else if 0xF1 ≤ b ∧ b ≤ 0xF3 then some (3, 0x80, 0xBF)
  else if b = 0xF4 then some (3, 0x80, 0x8F)
  else none

/-- The continuation bytes at the start of a list, at most `n`. -/
private def continuation (n low high : Nat) (bs : List UInt8) : List UInt8 :=
  match n, bs with
  | n + 1, b :: rest => if continues low high b then b :: continuation n 0x80 0xBF rest else []
  | _, _ => []

/-- The text of some bytes, read from the left. -/
def lossyChars (bs : List UInt8) : List Char :=
  match bs with
  | [] => []
  | b :: rest =>
    if b.toNat < 0x80 then Char.ofNat b.toNat :: lossyChars rest
    else
      match shape b.toNat with
      | none => '\uFFFD' :: lossyChars rest
      | some (n, low, high) =>
        let more := continuation n low high rest
        let top := b.toNat % twoTo (6 - n)
        let c := if more.length = n
          then Char.ofNat (more.foldl (fun v d => v * 64 + d.toNat % 64) top) else '\uFFFD'
        c :: lossyChars (rest.drop more.length)
termination_by bs.length

/-- The text of some bytes. -/
def utf8Lossy (bs : List UInt8) : String := .ofList (lossyChars bs)

end PageSpec.Text
