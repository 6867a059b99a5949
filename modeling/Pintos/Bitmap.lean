import Mathlib.Algebra.Group.Nat.Defs
import Mathlib.Data.List.Nodup
import Mathlib.Data.List.Range

/-! The bitmap of `lib/kernel/bitmap.c` as the list of its bits. The unused bits of
the last word are left out: they are masked whenever a bitmap is read. -/
namespace Pintos.Bitmap
open List

abbrev Bits:=List Bool

/-- `none` stands for a failed assertion. The sum of the second one wraps; the
loop then runs into the assertion of `bitmap_test`, unless it finds `value`. -/
def bitmapContains (b:Bits)(start cnt:ℕ)(value:Bool):Option Bool:=
 if start≤b.length ∧ (start+cnt)%2^32≤b.length then
  if value∈(b.drop start).take cnt then some true
  else if start+cnt≤b.length then some false else none
 else none

def bitmapAll (b:Bits)(start cnt:ℕ):Option Bool:=(bitmapContains b start cnt false).map (!·)
def bitmapSetMultiple (b:Bits)(start cnt:ℕ)(value:Bool):Option Bits:=
 if start+cnt≤b.length then
  some (b.mapIdx (fun i bit=>if start ≤ i ∧ i<start+cnt then value else bit))
 else none

/-- The scan of `free_map_allocate`, for clear bits from the first one on. -/
def bitmapScan (b:Bits)(cnt:ℕ):Option ℕ:=
 if cnt≤b.length then
  (List.range (b.length-cnt+1)).find? (fun i=>bitmapContains b i cnt true=some false)
 else none

def bitmapFileSize (b:Bits):ℕ:=4*((b.length+31)/32)

/-- The bytes that `bitmap_write` writes. -/
def image (b:Bits)(i:ℕ):UInt8:=UInt8.ofNat (Nat.ofBits (fun j:Fin 8=>b.getD (8*i+j.val) false))

/-- The bits that `bitmap_read` finds in the bytes it read. -/
def ofImage (cnt:ℕ)(bytes:List UInt8):Bits:=
 (List.range cnt).map (fun k=>(bytes.getD (k/8) 0).toNat.testBit (k%8))

section
variable {b b':Bits}{start cnt i:ℕ}{value:Bool}

lemma image_testBit (b:Bits)(k:ℕ):(image b (k/8)).toNat.testBit (k%8)=b.getD k false:=by
 have small:=Nat.ofBits_lt_two_pow (fun j:Fin 8=>b.getD (8*(k/8)+j.val) false)
 have bit:k%8<8:=by omega
 unfold image
 rw[UInt8.toNat_ofNat',Nat.mod_eq_of_lt small,Nat.testBit_ofBits_lt _ _ bit]
 have same:8*(k/8)+k%8=k:=by omega
 simp only[same]

lemma ofImage_image {bytes:List UInt8}(hb:∀i<bitmapFileSize b,bytes.getD i 0=image b i):
 ofImage b.length bytes=b:=by
 apply ext_getElem?
 intro k
 unfold ofImage
 by_cases hk:k<b.length
 · have hbyte:k/8<bitmapFileSize b:=by
    unfold bitmapFileSize
    omega
   rw[getElem?_map,getElem?_range hk,Option.map_some,hb _ hbyte,image_testBit,
    getD_eq_getElem?_getD,getElem?_eq_getElem hk,Option.getD_some]
 · rw[getElem?_eq_none (by simpa using hk),getElem?_eq_none (by omega)]

lemma mem_slice:value∈(b.drop start).take cnt ↔ ∃i,start ≤ i ∧ i<start+cnt ∧ b[i]?=some value:=by
 rw[mem_iff_getElem?]
 constructor
 · rintro ⟨k,hk⟩
   have hlt:k<cnt:=by
    by_contra h
    rw[getElem?_take,if_neg h] at hk
    cases hk
   rw[getElem?_take_of_lt hlt,getElem?_drop] at hk
   exact ⟨start+k,by omega,by omega,hk⟩
 · rintro ⟨i,hs,hi,hv⟩
   refine ⟨i-start,?_⟩
   rw[getElem?_take_of_lt (by omega),getElem?_drop]
   rwa[show start+(i-start)=i by omega]

lemma bitmapSetMultiple_length (h:bitmapSetMultiple b start cnt value=some b'):
 b'.length=b.length:=by
 unfold bitmapSetMultiple at h
 split at h
 · obtain rfl:=Option.some.inj h
   simp
 · cases h

lemma bitmapSetMultiple_bit (h:bitmapSetMultiple b start cnt value=some b'):
 b'[i]?=if start ≤ i ∧ i<start+cnt then some value else b[i]?:=by
 unfold bitmapSetMultiple at h
 split at h
 · obtain rfl:=Option.some.inj h
   rw[getElem?_mapIdx]
   by_cases hi:start ≤ i ∧ i<start+cnt
   · rw[if_pos hi,getElem?_eq_getElem (by omega)]
     simp[hi]
   · cases b[i]?<;>simp[hi]
 · cases h

lemma bitmapScan_spec (h:bitmapScan b cnt=some start):
 start+cnt≤b.length ∧ ∀i,start ≤ i → i<start+cnt → b[i]?=some false:=by
 unfold bitmapScan at h
 split at h
 swap
 · cases h
 have hr:=mem_range.1 (mem_of_find?_eq_some h)
 have hc:=find?_some h
 have range:start+cnt≤b.length:=by omega
 refine ⟨range,fun i hs hi=>?_⟩
 have hlt:i<b.length:=by omega
 cases hb:b[i] with
 | false=>rw[getElem?_eq_getElem hlt,hb]
 | true=>
  have found:true∈(b.drop start).take cnt:=mem_slice.2 ⟨i,hs,hi,by rw[getElem?_eq_getElem hlt,hb]⟩
  unfold bitmapContains at hc
  split at hc<;>simp at hc

lemma bitmapAll_of_marked (small:b.length<2^32)(range:start+cnt≤b.length)
 (h:∀i,start ≤ i → i<start+cnt → b[i]?=some true):
 bitmapAll b start cnt=some true:=by
 have clear:¬false∈(b.drop start).take cnt:=by
  intro hm
  obtain ⟨i,hs,hi,hb⟩:=mem_slice.1 hm
  rw[h i hs hi] at hb
  cases hb
 unfold bitmapAll bitmapContains
 rw[if_pos ⟨by omega,by omega⟩,if_neg clear,if_pos range]
 rfl

end

structure Claimed (b:Bits)(l:List ℕ):Prop where
 distinct:l.Nodup
 marked:∀s∈l,b[s]?=some true
variable {b b':Bits}{start cnt:ℕ}{l l':List ℕ}

lemma Claimed.perm (h:Claimed b l)(p:l.Perm l'):Claimed b l':=
 ⟨p.nodup_iff.1 h.distinct,fun s hs=>h.marked s (p.mem_iff.2 hs)⟩
lemma Claimed.sublist (h:Claimed b l)(p:l'.Sublist l):Claimed b l':=
 ⟨p.nodup h.distinct,fun s hs=>h.marked s (p.subset hs)⟩
lemma Claimed.lt (h:Claimed b l){s:ℕ}(hs:s∈l):s<b.length:=
 (List.getElem?_eq_some_iff.1 (h.marked s hs)).1

lemma Claimed.alloc (h:Claimed b l)(scan:bitmapScan b cnt=some start)
 (set:bitmapSetMultiple b start cnt true=some b'):
 Claimed b' (List.range' start cnt++l):=by
 obtain ⟨-,clear⟩:=bitmapScan_spec scan
 refine ⟨nodup_append'.2 ⟨nodup_range',h.distinct,?_⟩,?_⟩
 · intro s hs hl
   obtain ⟨lo,hi⟩:=mem_range'_1.1 hs
   have:=h.marked s hl
   rw[clear s lo hi] at this
   cases this
 · intro s hs
   rw[bitmapSetMultiple_bit set]
   rcases mem_append.1 hs with hs|hs
   · rw[if_pos (mem_range'_1.1 hs)]
   · rw[h.marked s hs,ite_self]

lemma bitmapSetMultiple_undo (scan:bitmapScan b cnt=some start)
 (set:bitmapSetMultiple b start cnt true=some b'):
 bitmapSetMultiple b' start cnt false=some b:=by
 obtain ⟨range,clear⟩:=bitmapScan_spec scan
 have range':start+cnt≤b'.length:=by
  rw[bitmapSetMultiple_length set]
  exact range
 have back:∃c,bitmapSetMultiple b' start cnt false=some c:=⟨_,if_pos range'⟩
 obtain ⟨c,hc⟩:=back
 rw[hc]
 congr 1
 apply ext_getElem?
 intro i
 rw[bitmapSetMultiple_bit hc,bitmapSetMultiple_bit set]
 split
 · rename_i hi
   exact (clear i hi.1 hi.2).symm
 · rfl

lemma Claimed.release (h:Claimed b (List.range' start cnt++l))(small:b.length<2^32)
 (hstart:start≤b.length):bitmapAll b start cnt=some true ∧
  ∃b',bitmapSetMultiple b start cnt false=some b' ∧ Claimed b' l:=by
 have marked:∀i,start ≤ i → i<start+cnt → b[i]?=some true:=fun i lo hi=>
  h.marked i (mem_append_left _ (mem_range'_1.2 ⟨lo,hi⟩))
 have range:start+cnt≤b.length:=by
  by_cases hc:cnt=0
  · omega
  · have:=(List.getElem?_eq_some_iff.1 (marked (start+cnt-1) (by omega) (by omega))).1
    omega
 refine ⟨bitmapAll_of_marked small range marked,_,if_pos range,?_⟩
 have set:bitmapSetMultiple b start cnt false=some _:=if_pos range
 obtain ⟨-,dl,disj⟩:=nodup_append'.1 h.distinct
 refine ⟨dl,fun s hs=>?_⟩
 rw[bitmapSetMultiple_bit set,if_neg,h.marked s (mem_append_right _ hs)]
 exact fun hr=>disj (mem_range'_1.2 hr) hs

end Pintos.Bitmap
