import Pintos.DirectoryMap
import Pintos.FilesysSpec

namespace Pintos.Filesys
open ExecHoare Bitmap Cache Directory InodeTable InodeData List ByteFile

structure Layout where
 map:InodeDisk
 root:InodeDisk
 rootLength:root.length=320

def Layout.system (L:Layout):List Entry:=[(0,L.map),(1,L.root)]
def Framed (L:Layout)(content:Sector)(X:ℕ→Cell→Prop)(s:ℕ)(c:Cell):Prop:=
 X s c ∧ (s=L.root.start → Shows c content)
def rootSlots (content:Sector):List DirEntry:=(ByteFile.mk 320 (sectorByte content)).slots
lemma rootSlots_length (content:Sector):(rootSlots content).length=16:=by
 rw[rootSlots,slots_length]
 change 320/20=16
 omega

lemma rootSlots_overlay (content:Sector){j:ℕ}(hj:j<16)(x:DirEntry):
 rootSlots (overlay content (20*j) 20 (entryBytes x))=(rootSlots content).set j x:=by
 have fits:j<(mk 320 (sectorByte content)).length/20:=by
  change j<320/20
  omega
 obtain ⟨-,hslots⟩:=write_slot _ x fits
 rw[rootSlots,rootSlots,←hslots]
 congr 1
 unfold write
 have hn:min 20 (320-20*j)=20:=by omega
 simp only[hn]
 congr 1
 funext k
 rw[overlay_byte _ _ _ _ _ (by omega)]
 by_cases hk:20*j≤k ∧ k<20*j+20
 · rw[if_pos hk,dif_pos hk,entryBytes,dif_pos (by omega)]
 · rw[if_neg hk,dif_neg hk]
variable {M:Medium}{L:Layout}{content:Sector}{X:ℕ→Cell→Prop}{stay:List Entry}
 {spare:List ℕ}{refs:List (ℕ×ℕ)}{F:Fixed}{fs:Fs}{p:ℕ}{stack:DirEntry}

lemma Core.root_sector (h:Core M (Framed L content X) stay spare refs F fs)
 (hroot:(1,L.root)∈stay){pos:ℕ}(hpos:pos<320):
 byteToSector L.root pos=L.root.start:=by
 have inside:(pos:ℤ)<L.root.length:=by
  rw[L.rootLength]
  omega
 have:=(h.sector (mem_append_left _ hroot) inside).1
 rw[this]
 dsimp only
 omega

lemma Core.root_byte (h:Core M (Framed L content X) stay spare refs F fs)
 (hroot:(1,L.root)∈stay){pos:ℕ}(hpos:pos<320):
 dataByte (fun s=>(M.cell fs.dev s).logical) L.root pos=sectorByte content pos:=by
 have shown:=((h.meets.2 L.root.start).1.2 rfl).2
 rw[dataByte,h.root_sector hroot hpos,shown,Nat.mod_eq_of_lt (by omega)]

lemma dirFile_shows (hroot:(1,L.root)∈stay)(hp:(1,p)∈refs)(t:Table):
 (dirFile M.toSectorIO p L.root.length stack).Shows
  (fun fs=>Core M (Framed L content X) stay spare refs F fs ∧ fs.inodes=t)
  (rootSlots content) M.E where
 turns:=by
  rw[rootSlots_length]
  change 16<L.root.length.toNat/20+1
  rw[L.rootLength]
  decide
 read:=by
  rintro s e i ⟨h,ht⟩ hi
  rw[rootSlots_length] at hi
  refine (inodeReadAt_core h hp (e:=(1,L.root)) (mem_append_left _ hroot) rfl 20 (20*i)).seq ?_
  rintro bytes s' ⟨⟨core,same⟩,rfl⟩
  refine ⟨⟨core,same.trans ht⟩,?_⟩
  have count:readable L.root (20:ℤ).toNat (20*i)=if i<16 then 20 else 0:=by
   unfold readable
   rw[L.rootLength]
   split<;>omega
  simp only[count,length_map,length_range]
  by_cases hlt:i<16
  · left
    have fits:i<(mk 320 (sectorByte content)).length/20:=by
     change i<320/20
     omega
    simp only[if_pos hlt,true_and]
    rw[rootSlots,slots_getElem? _ fits,Option.some.injEq]
    funext k
    have hk:k.val<20:=k.isLt
    rw[getD_eq_getElem?_getD,getElem?_map,getElem?_range hk,Option.map_some,
     Option.getD_some,h.root_byte hroot (by omega)]
    rfl
  · right
    rw[if_neg hlt,rootSlots_length]
    exact ⟨by decide,by omega⟩

/-- What the root directory reads as after a write of the entry at `j`. -/
def Rewritten (M:Medium)(content content':Sector)(j:ℕ)(x:DirEntry):Prop:=
 ∃base,M.Base content base ∧ content'=M.merge content (overlay base (20*j) 20 (entryBytes x))

lemma rootWrite_core (h:Core M (Framed L content X) stay spare refs F fs)
 (hroot:(1,L.root)∈stay)(hp:(1,p)∈refs)(calm:Calm M X L.root)(x:DirEntry)
 {j:ℕ}(hj:j≤16):
 Holds ((dirFile M.toSectorIO p L.root.length stack).writeAt x (20*j)) fs (fun n fs'=>
  (n≠20 ∧ Core M (Framed L content X) stay spare refs F fs') ∨
  (n=20 ∧ j<16 ∧ ∃content',Rewritten M content content' j x ∧
   Core M (Framed L content' X) stay spare refs F fs')) M.E:=by
 have hmem:(1,L.root)∈live stay fs.inodes:=mem_append_left _ hroot
 obtain ⟨i,hf,hdata⟩:=h.find hp hmem rfl
 change Holds (inodeWriteAt M.toSectorIO p _ 20 (20*j)) fs _ _
 unfold inodeWriteAt
 rw[holds_bind,holds_theInode hf]
 split
 · exact .inl ⟨by decide,h⟩
 rw[holds_onDevice,hdata]
 let W:=fun content=>Wants (Framed L content X) (live stay fs.inodes)
 refine (writeLoop_rule (J:=fun w d=>SameDevice fs.dev d ∧ ((w=0 ∧ Meets M (W content) d) ∨
  (w=20 ∧ j<16 ∧ ∃content',Rewritten M content content' j x ∧
   Meets M (W content') d))) ?_ ?_ ⟨.refl _,.inl ⟨rfl,h.meets⟩⟩).imp ?_
 · rintro w d ⟨same,⟨hw,meets⟩|⟨hw,hlt,content',hc,meets⟩⟩
   · exact ⟨⟨same.size,same.clock,same.mallocOk⟩,.inl ⟨hw,meets.malloc _⟩⟩
   · exact ⟨⟨same.size,same.clock,same.mallocOk⟩,.inr ⟨hw,hlt,content',hc,meets.malloc _⟩⟩
 · rintro w d n ⟨same,⟨rfl,meets⟩|⟨rfl,-⟩⟩ hn hpos
   swap
   · unfold chunkSize at hn
     omega
   have hlt:j<16:=by
    unfold chunkSize at hn
    rw[L.rootLength] at hn
    omega
   have hn20:n=20:=by
    rw[hn]
    unfold chunkSize
    rw[L.rootLength]
    omega
   subst hn20
   have hsector:byteToSector L.root (20*j+0)=L.root.start:=h.root_sector hroot (by omega)
   have reach:M.Reach d.size L.root.start:=by
    rw[←hsector,same.size]
    apply h.reach hmem
    rw[L.rootLength]
    omega
   rw[hsector,Nat.mod_eq_of_lt (by omega)]
   refine (writeChunk_spec M meets.1 reach (by omega) _).imp ?_
   rintro _ d' ⟨⟨ok,same'⟩,own,others⟩
   have shown:=(meets.2 L.root.start).1.2 rfl
   refine ⟨same.trans same',.inr ⟨rfl,hlt,_,
    ⟨d.disk L.root.start,M.base d _ content shown,rfl⟩,ok,fun s=>?_⟩⟩
   have hs:=meets.2 s
   by_cases hr:s=L.root.start
   · subst hr
     rw[own]
     refine ⟨⟨calm.put _ ?_ _ _ hs.1.1,fun _=>?_⟩,fun e he hes=>?_⟩
     · rw[←hsector]
       apply (h.sector hmem _).2
       rw[L.rootLength]
       omega
     · simpa only[Nat.zero_add,Nat.add_zero] using M.put_shows _ content _ shown
     · refine absurd hes (h.data_ne_header hmem he ?_)
       rw[←hsector]
       apply (h.sector hmem _).2
       rw[L.rootLength]
       omega
   · refine ⟨⟨settles_keeps (calm.evict s) (others s hr) hs.1.1,fun he=>absurd he hr⟩,
      fun e he hes=>?_⟩
     exact settles_keeps (P:=fun c=>IsHeader c e.2) (fun c hc=>hc.evict) (others s hr)
      (hs.2 e he hes)
 · rintro n d ⟨same,⟨rfl,meets⟩|⟨rfl,hlt,content',hc,meets⟩⟩
   · exact .inl ⟨by decide,h.device same meets⟩
   · exact .inr ⟨rfl,hlt,content',hc,h.device same meets⟩

end Pintos.Filesys
