import Blame.Text.Basic
import Mathlib.Data.List.Lex

/-!
# The order of texts

Texts are ordered like the rows of their code points. No half has the number of a character, so the numbers of code
points tell them apart, and the order is linear.
-/

namespace Blame

namespace CodePoint

theorem toNat_injective : Function.Injective toNat := by
  intro c d h
  cases c with
  | char c =>
    cases d with
    | char d => exact congrArg char (Char.toNat_inj.1 h)
    | half n =>
      have hvalid := c.valid
      simp only [toNat, Char.toNat, UInt32.isValidChar, Nat.isValidChar] at h hvalid
      omega
  | half m =>
    cases d with
    | char d =>
      have hvalid := d.valid
      simp only [toNat, Char.toNat, UInt32.isValidChar, Nat.isValidChar] at h hvalid
      omega
    | half n =>
      simp only [toNat, Nat.add_left_cancel_iff] at h
      exact congrArg half (Fin.ext h)

instance : LinearOrder CodePoint := LinearOrder.lift' toNat toNat_injective

end CodePoint

namespace Text

instance : LinearOrder Text := LinearOrder.lift' toList fun _ _ h => ext h

end Text

end Blame
