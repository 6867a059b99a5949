import Pintos.PageMaps
import Pintos.Process

/-!
# Executables

Which files `load` accepts, and what memory it needs for them, without the steps in which it
finds out.
-/
namespace Pintos.ElfImage
open Paging PageMaps Process ByteWords

/-- What is in a file. Its length is an `off_t`. -/
structure Content where
 bytes:List UInt8
 short:bytes.length<2^31

namespace Content
variable (c:Content)

def length:ℕ:=c.bytes.length
def read (pos size:ℕ):List UInt8:=(c.bytes.drop pos).take size
def ehdr:Ehdr:=readEhdr (c.read 0 52)
def phdr (i:ℕ):Phdr:=readPhdr (c.read (c.ehdr.phoff+32*i) 32)
def phdrs:List Phdr:=(List.range c.ehdr.phnum).map c.phdr

end Content

section
variable (h:Phdr)

def firstPage:ℕ:=h.vaddr/pgSize
def pageCount:ℕ:=(h.amounts.1+h.amounts.2)/pgSize
def pagesOf:List (ℕ×Bool):=
 if h.type=1 then
  (List.range' (firstPage h) (pageCount h)).map (fun n=>(n,decide (h.flags/2%2=1)))
 else []

end

def Backed (c:Content)(h:Phdr):Prop:=
 validateSegment h c.length=true ∧ h.offset/pgSize*pgSize+h.amounts.1≤c.length
def Accepted (c:Content)(h:Phdr):Prop:= ¬(h.type=2 ∨ h.type=3 ∨ h.type=5) ∧ (h.type=1 → Backed c h)

structure Executable (c:Content):Prop where
 size:52≤c.length
 ehdr:c.ehdr.Valid
 table:c.ehdr.phnum=0 ∨ c.ehdr.phoff+32*c.ehdr.phnum≤c.length
 phdrs:∀h∈c.phdrs,Accepted c h

def segments (c:Content):List (ℕ×Bool):=c.phdrs.flatMap pagesOf
def stackTop:ℕ×Bool:=(userLimit-1,true)

/-- The bytes that `setup_stack` pushes: the words with their terminators, a pointer to each
and a null pointer, and three words. -/
def argBytes (input:List UInt8):ℕ:=
 ((tokens input).map (fun w=>w.length+1)).sum+4*((tokens input).length+1)+12

/-- There are not too many of them, and they go to pages that may be written to. -/
structure ArgsFit (input:List UInt8)(ps:List (ℕ×Bool)):Prop where
 count:(tokens input).length≤128
 pages:∀n<userLimit,(userLimit*pgSize-argBytes input)/pgSize≤n → (n,true)∈ps

/-- The file can be loaded with this many pages left in the pools. Without a page for the copy
of the command line `setup_stack` returns `TID_ERROR`, which is true. -/
structure Loadable (c:Content)(kernel user:ℕ)(input:List UInt8):Prop where
 executable:Executable c
 room:Room kernel user (segments c)
 stack:(tablesOf (segments c)).card=kernel ∨
  Room (kernel-1) user (segments c++[stackTop]) ∧ ArgsFit input (segments c++[stackTop])
lemma wordAt_lt (bytes:List UInt8)(i:ℕ):wordAt bytes i<2^32:=word_lt _ _ _ _

variable {h:Phdr}{c:Content}

variable (memsz:h.memsz<2^32)(valid:validateSegment h c.length=true)
include memsz valid

lemma validated:h.offset%pgSize=h.vaddr%pgSize ∧ h.offset≤c.length ∧ h.filesz≤h.memsz ∧
  0<h.memsz ∧ h.vaddr+h.memsz<userLimit*pgSize ∧ pgSize≤h.vaddr:=by
 have short:=c.short
 unfold validateSegment at valid
 have top:physBase.toNat=3221225472:=rfl
 have length:((c.length:ℤ)%2^32).toNat=c.length:=by
  unfold Content.length
  omega
 simp only[length,decide_eq_true_eq] at valid
 obtain ⟨hofs,hoff,hf,hm,hv,hl,hle,hp⟩:=valid
 refine ⟨hofs,hoff,hf,by omega,?_,hp⟩
 unfold userLimit pgSize
 omega

lemma amounts_sum:
 h.amounts.1+h.amounts.2=pgSize*pageCount h ∧ firstPage h+pageCount h≤userLimit:=by
 obtain ⟨-,-,hf,hm,hv,-⟩:=validated memsz valid
 unfold pageCount firstPage Phdr.amounts roundUp
 unfold userLimit pgSize at *
 split<;>dsimp only<;>omega

end Pintos.ElfImage
