import Mathlib.Algebra.Group.Nat.Defs
import Mathlib.Tactic.Common

/-! Words of 32 bits as four bytes, the least significant first. -/
namespace Pintos.ByteWords

def wordByte (n i:ℕ):UInt8:=UInt8.ofNat (n/256^i%256)
def word (a b c d:UInt8):ℕ:=a.toNat+256*b.toNat+65536*c.toNat+16777216*d.toNat

lemma wordByte_toNat (n i:ℕ):(wordByte n i).toNat=n/256^i%256:=by
 have h:n/256^i%256<256:=Nat.mod_lt _ (by decide)
 exact Nat.mod_eq_of_lt h

lemma word_wordByte {n:ℕ}(h:n<2^32):
 word (wordByte n 0) (wordByte n 1) (wordByte n 2) (wordByte n 3)=n:=by
 simp only[word,wordByte_toNat]
 simp only[Nat.reducePow]
 omega

lemma word_lt (a b c d:UInt8):word a b c d<2^32:=by
 have ha:=a.toNat_lt
 have hb:=b.toNat_lt
 have hc:=c.toNat_lt
 have hd:=d.toNat_lt
 unfold word
 omega

end Pintos.ByteWords
