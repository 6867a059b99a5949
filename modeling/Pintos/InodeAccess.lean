import Pintos.CacheWrites
import Pintos.FilesysSpec

/-!
# Reading and writing the data of an inode

`inode_read_at` and `inode_write_at` from any state of the cache and of the disk.
-/
namespace Pintos.InodeData
open ExecHoare Cache InodeTable HashTable Filesys Function List

section

def ReadsLogical (fs:Fs)(p:ℕ)(data:InodeDisk)(size:ℤ)(offset:ℕ):Prop:=
 ∃bytes fs',(inodeReadAt cached p size offset).run fs=.ok (bytes,fs') ∧
  bytes=(List.range (readable data size.toNat offset)).map
   (fun k=>dataByte fs.dev.logical data (offset+k)) ∧
  fs'.dev.logical=fs.dev.logical

variable {data:InodeDisk}{d:Device}

lemma cached_isSome (d:Device)(s:ℕ):(d.cached s).isSome=(d.cell s).block.isSome:=by
 simp[Device.cell]
lemma logical_of_cell {d d':Device}(h:d'.cell=d.cell):d'.logical=d.logical:=by
 funext s
 rw[←cell_logical,←cell_logical,h]

lemma cached_load_hit (inv:Inv d)(s:ℕ):
 Holds (cached.load s) d (fun b d'=>(d.cached s).isSome ∧ b=d.logical s ∧
  Inv d' ∧ d'.cell=d.cell) (fun _=>d.cached s=none):=by
 refine (cached_load_cases d s inv).mono ?_ fun _ miss=>miss.1
 rintro b d' ⟨hit,⟨inv',-,cell⟩,rfl⟩
 exact ⟨hit,cell_logical d s,inv',cell⟩

/-- The loop ends with the bytes if every sector that it needs is cached, and with a fault
otherwise. -/
lemma readLoop_hits (turns size offset:ℕ)(inv:Inv d)(enough:size<turns):
 Holds (readLoop cached data turns size offset) d (fun bytes d'=>(∀k<readable data size offset,
    (d.cached (byteToSector data (offset+k))).isSome) ∧
   bytes=(List.range (readable data size offset)).map
    (fun k=>dataByte d.logical data (offset+k)) ∧ d'.cell=d.cell)
  (fun _=>∃k<readable data size offset,d.cached (byteToSector data (offset+k))=none):=by
 induction turns generalizing size offset d with
 | zero=>omega
 | succ turns ih=>
  unfold readLoop
  have short:=chunkSize_le data size offset
  dsimp only
  split
  · rename_i none
    rw[readable_of_chunk_zero none]
    exact ⟨fun k bound=>absurd bound (Nat.not_lt_zero k),rfl,rfl⟩
  · have split:readable data size offset=_:=readable_chunk size offset
    refine ((cached_load_hit inv (byteToSector data offset)).mono (fun _ _ h=>h)
     fun _ miss=>⟨0,by omega,by simpa using miss⟩).seq ?_
    rintro buffer d₁ ⟨hit,rfl,inv₁,cells⟩
    have found (s:ℕ):(d₁.cached s).isSome=(d.cached s).isSome:=by
     rw[cached_isSome,cached_isSome,cells]
    refine ((ih (size-chunkSize data size offset) (offset+chunkSize data size offset) inv₁
     (by omega)).mono (fun _ _ h=>h) ?_).seq ?_
    · rintro - ⟨k,bound,miss⟩
      refine ⟨chunkSize data size offset+k,by omega,?_⟩
      rw[←Option.isNone_iff_eq_none,←Option.not_isSome] at miss ⊢
      rwa[found,Nat.add_assoc] at miss
    rintro rest d₂ ⟨hits,rfl,cells₂⟩
    refine ⟨?_,?_,cells₂.trans cells⟩
    · intro k bound
      by_cases early:k<chunkSize data size offset
      · rwa[byteToSector_chunk early]
      · have later:=hits (k-chunkSize data size offset) (by omega)
        rwa[found,show offset+chunkSize data size offset +
         (k-chunkSize data size offset)=offset+k by omega] at later
    · rw[split,range_add,map_append,List.map_map,logical_of_cell cells]
      refine congrArg₂ (· ++ ·) ?_ ?_
      · apply map_congr_left
        intro k bound
        exact (dataByte_chunk d.logical (mem_range.1 bound)).symm
      · apply map_congr_left
        intro k _
        simp only[comp,Nat.add_assoc]

variable {fs:Fs}{p:ℕ}{inode:Inode}

lemma inodeReadAt_hits (inv:Inv fs.dev)(found:fs.inodes.find p=some inode)(size:ℤ)(offset:ℕ):
 Holds (inodeReadAt cached p size offset) fs (fun bytes fs'=>
  (∀k<readable inode.data size.toNat offset,
   (fs.dev.cached (byteToSector inode.data (offset+k))).isSome) ∧
  bytes=(List.range (readable inode.data size.toNat offset)).map
   (fun k=>dataByte fs.dev.logical inode.data (offset+k)) ∧
  fs'.dev.logical=fs.dev.logical)
  (fun _=>∃k<readable inode.data size.toNat offset,
   fs.dev.cached (byteToSector inode.data (offset+k))=none):=by
 unfold inodeReadAt
 rw[holds_bind,holds_theInode found,holds_onDevice]
 refine (readLoop_hits (size.toNat+1) size.toNat offset inv (Nat.lt_succ_self _)).imp ?_
 rintro bytes d' ⟨hits,content,cells⟩
 exact ⟨hits,content,logical_of_cell cells⟩

/-- On a miss the null pointer is used: a read succeeds exactly if all its sectors are cached. -/
theorem inode_reads_logical_iff (inv:Inv fs.dev)(found:fs.inodes.find p=some inode)
 (size:ℤ)(offset:ℕ):
 ReadsLogical fs p inode.data size offset ↔ ∀k<readable inode.data size.toNat offset,
   (fs.dev.cached (byteToSector inode.data (offset+k))).isSome:=by
 have spec:=inodeReadAt_hits inv found size offset
 constructor
 · rintro ⟨bytes,fs',run,-⟩
   exact (spec.ok run).1
 · intro hits
   have returns:=spec.mono (F:=NoFault) (fun _ _ h=>h.2) (by
    rintro e ⟨k,bound,miss⟩
    have hit:=hits k bound
    rw[miss] at hit
    cases hit)
   obtain ⟨bytes,fs',run,content,same⟩:=returns.returns
   exact ⟨bytes,fs',run,content,same⟩

def oneInode (dev:Device)(length:ℤ):Fs where
 dev:=dev
 freeMap:=[]
 freeMapFile:=none
 inodes:=⟨[⟨0,4,1,false,0,⟨5,length,inodeMagic⟩⟩],1⟩
 files:=[]
 nextFile:=0

theorem inode_reads_cached:∃dev,ReadsLogical (oneInode dev 512) 0 ⟨5,512,inodeMagic⟩ 512 0:=by
 have empty:=coherent_of_empty (d:=blankDevice id) rfl
 obtain ⟨b,dev,run,-,-,hit⟩:=empty.fill (fun _=>rfl) (s:=5) (by decide) (by decide)
 have inv:=((cacheBlockFromSector_spec empty.toInv (s:=5) (by decide)).ok run).1
 refine ⟨dev,(@inode_reads_logical_iff (oneInode dev 512) 0
  ⟨0,4,1,false,0,⟨5,512,inodeMagic⟩⟩ inv rfl 512 0).2 ?_⟩
 intro k bound
 have small:k<512:=bound
 have sector:byteToSector ⟨5,512,inodeMagic⟩ (0+k)=5:=by
  rw[Nat.zero_add,byteToSector,if_pos (show (k:ℤ)<512 by omega),Nat.div_eq_of_lt small]
  rfl
 rw[sector]
 change (dev.cached 5).isSome=true
 rw[hit]
 rfl

theorem inode_read_misses:
 ¬ReadsLogical (oneInode (blankDevice id) 512) 0 ⟨5,512,inodeMagic⟩ 1 0:=by
 rintro ⟨bytes,fs',run,-⟩
 have spec:=@inodeReadAt_hits (oneInode (blankDevice id) 512) 0
  ⟨0,4,1,false,0,⟨5,512,inodeMagic⟩⟩ (blankDevice_inv id) rfl 1 0
 have hit:=(spec.ok run).1 0 (by decide)
 exact absurd hit (by decide)

end
/-- The comment's promise for stores, and the code for the rest. -/
def contract: SectorIO:={cached with store:=storeWhole}

def Touched (data:InodeDisk)(offset n s:ℕ)(i:Fin 512):Prop:=
 ∃k<n,byteToSector data (offset+k)=s ∧ (offset+k)%512=i.val

/-- The bytes of the buffer were written, and no others. -/
structure WroteOnly (data:InodeDisk)(buffer:ℕ→UInt8)(offset n:ℕ)(d d':Device):
  Prop where
 stored:∀k<n,dataByte d'.logical data (offset+k)=buffer k
 kept:∀s i,¬Touched data offset n s i → d'.logical s i=d.logical s i

def WritesOnly (fs:Fs)(p:ℕ)(data:InodeDisk)(buffer:ℕ→UInt8)(size:ℤ)(offset:ℕ):Prop:=
 ∃fs',(inodeWriteAt contract p buffer size offset).run fs=
   .ok (readable data size.toNat offset,fs') ∧
  WroteOnly data buffer offset (readable data size.toNat offset) fs.dev fs'.dev
def Placed (data:InodeDisk)(d:Device):Prop:=
 ∀pos:ℕ,pos<data.length → byteToSector data pos=data.start+pos/512 ∧ data.start+pos/512<d.size

/-- The state after `w` bytes: what was not written in a sector comes from the disk. -/
structure Bounced (data:InodeDisk)(buffer:ℕ→UInt8)(size offset:ℕ)(d:Device)(w:ℕ)
  (d':Device):Prop where
 wf:WF blockOps d'.cache
 same:SameDevice d d'
 disk:d'.disk=d.disk
 stored:∀k<w,dataByte d'.logical data (offset+k)=buffer k
 around:∀s i,(∃j,Touched data offset w s j) → ¬Touched data offset w s i → d'.logical s i=d.disk s i
 elsewhere:∀s,(¬ ∃j,Touched data offset w s j) → d'.logical s=d.logical s
 length:∀k<w,((offset+k:ℕ):ℤ)<data.length
 rest:readable data size offset=w+readable data (size-w) (offset+w)
 aligned:w=0 ∨ (offset+w)%512=0 ∨ chunkSize data (size-w) (offset+w)=0

variable {data:InodeDisk}{buffer:ℕ→UInt8}{size offset:ℕ}{d:Device}

lemma bounced_start (wf:WF blockOps d.cache):Bounced data buffer size offset d 0 d where
 wf:=wf
 same:=.refl d
 disk:=rfl
 stored k bound:=absurd bound (Nat.not_lt_zero k)
 around s i touched:=by
  obtain ⟨j,k,bound,-⟩:=touched
  exact absurd bound (Nat.not_lt_zero k)
 elsewhere s _:=rfl
 length k bound:=absurd bound (Nat.not_lt_zero k)
 rest:=by simp
 aligned:=.inl rfl

lemma writeChunk_contract (wf:WF blockOps d.cache){sector ofs n:ℕ}
 (range:sector<d.size)(fits:ofs+n≤512)(bytes:ℕ→UInt8):
 Holds (writeChunk contract sector ofs n bytes) d (fun _ d'=>
  WF blockOps d'.cache ∧ SameDevice d d' ∧ d'.disk=d.disk ∧
   d'.logical=update d.logical sector (overlay (d.disk sector) ofs n bytes))
  NoFault:=by
 unfold writeChunk
 split
 · rename_i whole
   rw[whole.1,whole.2,overlay_whole]
   exact storeWhole_spec wf sector _
 · rw[if_pos (by omega),holds_bind,holds_blockRead,if_pos range]
   exact storeWhole_spec wf sector _

lemma Bounced.fresh {w:ℕ}{d₁:Device}(h:Bounced data buffer size offset d w d₁)
 (placed:Placed data d)(positive:0<chunkSize data (size-w) (offset+w)):
 ∀k<w,byteToSector data (offset+k)≠byteToSector data (offset+w):=by
 intro k before
 have inside:=lt_length_of_chunk positive
 rw[(placed _ (h.length k before)).1,(placed _ inside).1]
 have aligned:(offset+w)%512=0:=by
  rcases h.aligned with start|aligned|done
  · omega
  · exact aligned
  · omega
 omega

lemma touched_chunk {w n:ℕ}(hn:n=chunkSize data (size-w) (offset+w))(s:ℕ)(i:Fin 512):
 Touched data offset (w+n) s i ↔ Touched data offset w s i ∨ s=byteToSector data (offset+w) ∧
   (offset+w)%512 ≤ i.val ∧ i.val<(offset+w)%512+n:=by
 have ofs:∀j<n,(offset+(w+j))%512=(offset+w)%512+j:=by
  unfold chunkSize at hn
  omega
 have sector:∀j<n,byteToSector data (offset+(w+j))=byteToSector data (offset+w):=by
  intro j bound
  rw[←Nat.add_assoc]
  exact byteToSector_chunk (hn▸bound)
 constructor
 · rintro ⟨k,bound,same,place⟩
   by_cases early:k<w
   · exact .inl ⟨k,early,same,place⟩
   · obtain ⟨j,rfl⟩:=Nat.exists_eq_add_of_le (Nat.le_of_not_lt early)
     rw[sector j (by omega)] at same
     rw[ofs j (by omega)] at place
     exact .inr ⟨same.symm,by omega,by omega⟩
 · rintro (⟨k,bound,same,place⟩|⟨rfl,low,high⟩)
   · exact ⟨k,by omega,same,place⟩
   · refine ⟨w+(i.val-(offset+w)%512),by omega,sector _ (by omega),?_⟩
     omega

lemma Bounced.chunk {w n:ℕ}{d₁ d₂:Device}(h:Bounced data buffer size offset d w d₁)
 (placed:Placed data d)(hn:n=chunkSize data (size-w) (offset+w))(positive:0<n)
 (wf:WF blockOps d₂.cache)(same:SameDevice d₁ d₂)(disk:d₂.disk=d₁.disk)
 (reads:d₂.logical=update d₁.logical (byteToSector data (offset+w))
  (overlay (d.disk (byteToSector data (offset+w))) ((offset+w)%512) n (fun k=>buffer (w+k)))):
 Bounced data buffer size offset d (w+n) d₂:=by
 have fresh:=h.fresh placed (by omega)
 have fits:(offset+w)%512+n≤512:=by
  unfold chunkSize at hn
  omega
 have touched:=touched_chunk hn
 have rest:readable data (size-w) (offset+w)=n+readable data (size-(w+n)) (offset+(w+n)):=by
  have split:readable data (size-w) (offset+w)=_:=readable_chunk _ _
  rwa[←hn,Nat.sub_sub,Nat.add_assoc] at split
 refine ⟨wf,h.same.trans same,disk.trans h.disk,?_,?_,?_,?_,?_,?_⟩
 · intro k bound
   rw[dataByte,reads]
   by_cases early:k<w
   · rw[update_of_ne (fresh k early)]
     exact h.stored k early
   · obtain ⟨j,rfl⟩:=Nat.exists_eq_add_of_le (Nat.le_of_not_lt early)
     have inside:j<chunkSize data (size-w) (offset+w):=by omega
     have byte:=dataByte_chunk (update d₁.logical (byteToSector data (offset+w))
      (overlay (d.disk (byteToSector data (offset+w))) ((offset+w)%512) n
       (fun k=>buffer (w+k)))) inside
     rw[dataByte,update_self,overlay_byte _ _ _ _ _ fits,if_pos (by omega),
      Nat.add_sub_cancel_left] at byte
     rw[←Nat.add_assoc]
     exact byte
 · rintro s i ⟨j,some⟩ other
   rw[touched] at some other
   rw[not_or] at other
   rw[reads]
   by_cases own:s=byteToSector data (offset+w)
   · rw[own,update_self,overlay,if_neg fun place=>other.2 ⟨own,place⟩]
   · rw[update_of_ne own]
     exact h.around s i ⟨j,some.resolve_right fun new=>own new.1⟩ other.1
 · intro s untouched
   have own:s≠byteToSector data (offset+w):=by
    rintro rfl
    refine untouched ⟨⟨(offset+w)%512,Nat.mod_lt _ (by decide)⟩,(touched _ _).2 ?_⟩
    exact .inr ⟨rfl,Nat.le_refl _,by dsimp only;omega⟩
   rw[reads,update_of_ne own]
   refine h.elsewhere s fun some=>untouched ?_
   obtain ⟨j,old⟩:=some
   exact ⟨j,(touched s j).2 (.inl old)⟩
 · intro k bound
   by_cases early:k<w
   · exact h.length k early
   · unfold chunkSize at hn
     omega
 · rw[h.rest,rest,Nat.add_assoc]
 · unfold chunkSize at hn ⊢
   omega

lemma writeLoop_bounces (wf:WF blockOps d.cache)(memory:∀n,d.mallocOk n=true)
 (placed:Placed data d)(buffer:ℕ→UInt8)(size offset:ℕ):
 Holds (writeLoop contract data buffer (size+1) size offset 0 false) d
  (fun n d'=>n=readable data size offset ∧ Bounced data buffer size offset d n d')
  NoFault:=by
 refine (writeLoop_rest (J:=Bounced data buffer size offset d) ?_ ?_ (size+1) 0 false
  (bounced_start wf) (Nat.lt_succ_self _)).imp ?_
 · intro w d₁ h
   exact ⟨h.wf,⟨h.same.size,h.same.clock,h.same.mallocOk⟩,h.disk,h.stored,h.around,
    h.elsewhere,h.length,h.rest,h.aligned⟩
 · intro w d₁ n h hn positive
   have inside:=lt_length_of_chunk (hn▸positive)
   have fits:(offset+w)%512+n≤512:=by
    unfold chunkSize at hn
    omega
   have range:byteToSector data (offset+w)<d₁.size:=by
    rw[h.same.size,(placed _ inside).1]
    exact (placed _ inside).2
   refine (writeChunk_contract h.wf range fits _).imp ?_
   rintro - d₂ ⟨wf₂,same,disk,reads⟩
   rw[h.disk] at reads
   exact h.chunk placed hn positive wf₂ same disk reads
 · rintro n d' ⟨h,done|⟨d₁,h₁,none⟩⟩
   · refine ⟨?_,h⟩
     rw[h.rest,readable_of_chunk_zero done]
     rfl
   · rw[h₁.same.mallocOk,memory] at none
     cases none

variable {fs:Fs}{p:ℕ}{inode:Inode}

lemma inodeWriteAt_bounces (wf:WF blockOps fs.dev.cache)
 (memory:∀n,fs.dev.mallocOk n=true)(found:fs.inodes.find p=some inode)
 (allowed:inode.denyWriteCnt=0)(placed:Placed inode.data fs.dev)(buffer:ℕ→UInt8)
 (size:ℤ)(offset:ℕ):
 Holds (inodeWriteAt contract p buffer size offset) fs
  (fun n fs'=>n=readable inode.data size.toNat offset ∧
   Bounced inode.data buffer size.toNat offset fs.dev n fs'.dev) NoFault:=by
 unfold inodeWriteAt
 rw[holds_bind,holds_theInode found,if_neg (by simpa using allowed),holds_onDevice]
 exact writeLoop_bounces wf memory placed buffer size.toNat offset

/-- The bytes around a write have to be on disk: `inode_write_at` writes only its bytes exactly if
the rest of each sector that it touches reads from the disk as it does from the cache. -/
theorem inode_writes_only_iff (wf:WF blockOps fs.dev.cache)
 (memory:∀n,fs.dev.mallocOk n=true)(found:fs.inodes.find p=some inode)
 (allowed:inode.denyWriteCnt=0)(placed:Placed inode.data fs.dev)(buffer:ℕ→UInt8)
 (size:ℤ)(offset:ℕ):
 WritesOnly fs p inode.data buffer size offset ↔
  ∀s i,(∃j,Touched inode.data offset (readable inode.data size.toNat offset) s j) →
   ¬Touched inode.data offset (readable inode.data size.toNat offset) s i →
    fs.dev.disk s i=fs.dev.logical s i:=by
 have spec:=inodeWriteAt_bounces wf memory found allowed placed buffer size offset
 constructor
 · rintro ⟨fs',run,wrote⟩ s i touched other
   obtain ⟨-,bounced⟩:=spec.ok run
   rw[←bounced.around s i touched other,wrote.kept s i other]
 · intro rest
   obtain ⟨n,fs',run,rfl,bounced⟩:=spec.returns
   refine ⟨fs',run,bounced.stored,fun s i other=>?_⟩
   by_cases touched:∃j,Touched inode.data offset (readable inode.data size.toNat offset) s j
   · rw[bounced.around s i touched other,rest s i touched other]
   · rw[bounced.elsewhere s touched]

lemma oneInode_placed {dev:Device}(size:dev.size=100):Placed ⟨5,512,inodeMagic⟩ dev:=by
 intro pos inside
 have small:pos<512:=by
  have:(pos:ℤ)<512:=inside
  omega
 rw[byteToSector,if_pos inside,Nat.div_eq_of_lt small,size]
 decide

theorem inode_writes_only_blank:
 WritesOnly (oneInode (blankDevice id) 512) 0 ⟨5,512,inodeMagic⟩ (fun _=>1) 3 10:=
 (@inode_writes_only_iff (oneInode (blankDevice id) 512) 0
  ⟨0,4,1,false,0,⟨5,512,inodeMagic⟩⟩ (blankDevice_inv id).wf (fun _=>rfl) rfl rfl
  (oneInode_placed rfl) (fun _=>1) 3 10).2 fun s i _ _=>by
   have reads:(blankDevice id).logical s=(blankDevice id).disk s:=by
    rw[←cell_logical,cell_logical_none]
    exact (hashInit_wf.hashFind_eq_none blockOps_lawful).2 (by simp[hashInit,Hash.elems])
   exact (congrFun reads i).symm

/-- A sector of ones that is only in the cache, and a write of its first byte: the other bytes
become what the disk has. -/
theorem inode_write_loses_update:∃dev,WF blockOps dev.cache ∧ (∀n,dev.mallocOk n=true) ∧
  Placed ⟨5,512,inodeMagic⟩ dev ∧
  ¬WritesOnly (oneInode dev 512) 0 ⟨5,512,inodeMagic⟩ (fun _=>2) 1 0:=by
 obtain ⟨-,dev,-,wf,same,disk,reads⟩:=
  (storeWhole_spec (blankDevice_inv id).wf 5 (fun _=>1)).returns
 have memory:∀n,dev.mallocOk n=true:=by
  intro n
  rw[same.mallocOk]
  rfl
 have placed:=oneInode_placed same.size
 refine ⟨dev,wf,memory,placed,?_⟩
 rintro ⟨fs',run,wrote⟩
 obtain ⟨-,bounced⟩:=(@inodeWriteAt_bounces (oneInode dev 512) 0
  ⟨0,4,1,false,0,⟨5,512,inodeMagic⟩⟩ wf memory rfl rfl placed (fun _=>2) 1 0).ok run
 have touched:Touched ⟨5,512,inodeMagic⟩ 0 1 5 0:=⟨0,by decide,by decide,by decide⟩
 have other:¬Touched ⟨5,512,inodeMagic⟩ 0 1 5 1:=by
  rintro ⟨k,bound,-,place⟩
  have first:k=0:=by omega
  rw[first] at place
  exact absurd place (by decide)
 have after:=(bounced.around 5 1 ⟨0,touched⟩ other).symm.trans (wrote.kept 5 1 other)
 change dev.disk 5 1=dev.logical 5 1 at after
 rw[disk,reads,update_self] at after
 exact absurd after (by decide)

end Pintos.InodeData
