import Pintos.FilesysOwnership

/-! The file system with the block cache, when sectors of removed files are used
again: inode headers and new data are written around the cache. -/
namespace Pintos.Filesys
open ExecHoare ExecRuns Bitmap Cache Directory HashTable InodeTable InodeData List Option

/-- The file system, with the files that were made and not removed since, each
with the header that `inode_create` wrote for it. -/
structure Session where
 fs:Fs
 named:List Entry

/-- What the root directory reads as through the cache. -/
def rootContent (fs:Fs):Sector:=fs.dev.logical (headerAt fs 1).2.start

def Session.next (s:Session)(c:Call):Option Session:=
 (result (c.run cached) s.fs).map fun r=>
  ⟨r.2,c.files s.fs (rootSlots (rootContent s.fs)) s.named r.1⟩

/-- Nothing is wrong with the file system, whatever else is cached. -/
def Session.Consistent (s:Session):Prop:=
 ∃L content,Mounted cachedMedium L content (fun _ _=>True) s.named s.fs

/-- When a file is made, no dirty block is cached for the sector that its header
gets; a name that is opened or removed leads to a file that exists. -/
def Session.Careful (s:Session)(c:Call):Prop:=
 c.Allowed s.fs ∧ c.Sound cachedMedium (rootContent s.fs) (s.named++condemned s.fs.inodes) s.fs

section
variable {s u:Session}{L:Layout}{content:Sector}

lemma Mounted.rootContent {X:ℕ→Cell→Prop}{named:List Entry}{fs:Fs}
 (h:Mounted cachedMedium L content X named fs):Filesys.rootContent fs=content:=by
 have hroot:headerAt fs 1=(1,L.root):=h.header (e:=(1,L.root)) (by simp[Layout.system])
 obtain ⟨hs,-,core⟩:=h
 rw[Filesys.rootContent,hroot,←cell_logical]
 exact ((core.meets.2 L.root.start).1.2 rfl).2

lemma true_plain:Plain cachedMedium (fun _ _=>True):=
 ⟨fun _ _ _=>trivial,fun _ _ _ _=>trivial,fun _ _ _ _=>trivial⟩

lemma Session.Consistent.next (h:s.Consistent){c:Call}(careful:s.Careful c)
 (step:s.next c=some u):u.Consistent:=by
 obtain ⟨L,content,mounted⟩:=h
 obtain ⟨allowed,sound⟩:=careful
 obtain ⟨⟨ok,fs'⟩,hr,rfl⟩:=map_eq_some_iff.1 step
 rw[mounted.rootContent] at sound ⊢
 obtain ⟨content',-,mounted'⟩:=(call_mounted mounted true_plain c allowed sound).result hr
 exact ⟨L,content',mounted'⟩

lemma Session.Consistent.runs {calls:List Call}(h:s.Consistent)
 (run:Runs Session.next Session.Careful s calls u):u.Consistent:=
 run.invariant (fun _ _ _ h careful step=>h.next careful step) h

end

section
variable {fs:Fs}{s:Session}

/-- The disk of a file system that was used without the cache, with the root
directory's sector in a cache that is empty otherwise. -/
def remount (fs:Fs):Option Session:=
 (result (onDevice (cacheBlockFromSector (headerAt fs 1).2.start)) (coldCache fs)).map
  fun r=>⟨r.2,namedFiles fs⟩

lemma Wants.fill {L:Layout}{content:Sector}{entries:List Entry}{t:ℕ}{c:Cell}
 (h:Wants (Framed L content fun _ _=>True) entries t c):
 Wants (Framed L content fun _ _=>True) entries t c.fill:=
 ⟨⟨trivial,fun ht=>(h.1.2 ht).fill⟩,fun e he hs=>(h.2 e he hs).fill⟩
lemma Wants.evict {L:Layout}{content:Sector}{entries:List Entry}{t:ℕ}{c:Cell}
 (h:Wants (Framed L content fun _ _=>True) entries t c):
 Wants (Framed L content fun _ _=>True) entries t c.evict:=
 ⟨⟨trivial,fun ht=>(h.1.2 ht).evict⟩,fun e he hs=>(h.2 e he hs).evict⟩

lemma Owning.remount (h:Owning fs)(hr:remount fs=some s):s.Consistent:=by
 obtain ⟨L,content,hs,handles,core⟩:=h.mounted
 obtain ⟨⟨b,fs'⟩,hres,rfl⟩:=map_eq_some_iff.1 hr
 have none:∀t,(coldCache fs).dev.cached t=none:=cached_empty rfl
 have inv:Inv (coldCache fs).dev:=(coherent_of_empty rfl).toInv
 have cold:Core cachedMedium (Framed L content fun _ _=>True) (L.system++namedFiles fs)
   [] (held hs) (fixed fs) (coldCache fs):=core.cold rfl rfl
 have spec:Holds (onDevice (cacheBlockFromSector (headerAt fs 1).2.start)) (coldCache fs)
   (fun _ fs'=>
    Core cachedMedium (Framed L content fun _ _=>True) (L.system++namedFiles fs)
     [] (held hs) (fixed fs) fs') AnyFault:=by
  rw[holds_onDevice]
  refine (cacheBlockFromSector_spec inv (none _)).any.imp ?_
  rintro b d ⟨inv',d₁,fills⟩
  obtain ⟨own,-,others⟩:=(fills.obtains (none _)).cells inv
  refine cold.device fills.same ⟨inv',fun t=>?_⟩
  by_cases ht:t=(headerAt fs 1).2.start
  · subst ht
    change Wants _ _ _ (d.cell _)
    rw[own]
    exact (cold.meets.2 _).fill
  · exact settles_keeps (fun _=>Wants.evict) (others t ht) (cold.meets.2 t)
 exact ⟨L,content,(spec.result hres).mounted handles⟩

end

instance (c:Cell):Decidable (NotDirty c):=
 decidable_of_iff (c.block.all (fun b=>!b.2)=true) <| by
  unfold NotDirty
  rcases c.block with _|⟨buffer,_|_⟩<;>simp

instance (content:Sector)(name:CString)(files:List Entry):Decidable (Known content name files):=
 decidable_of_iff ((rootSlots content).all (fun x=>!Names name x ||
  files.any (fun e=>e.1 == x.inodeSector && (e.1 != 0 && e.1 != 1)))=true) <| by
  simp only[Known,List.all_eq_true,Bool.or_eq_true,Bool.not_eq_true',List.any_eq_true,
   Bool.and_eq_true,beq_iff_eq,bne_iff_ne]
  refine forall₂_congr fun x _=>?_
  cases Names name x<;>simp

instance (s:Session)(c:Call):Decidable (s.Careful c):=
 @instDecidableAnd _ _ _ <|
  match c with
  | .filesysCreate _ _ _=>
   @decidableForallMem Entry (fun e=>NotDirty (cachedMedium.cell s.fs.dev e.1)) inferInstance _
  | .filesysOpen name _ | .filesysRemove name _=>instDecidableKnown _ name _
  | .fileReopen _ | .fileClose _ | .fileReadAt _ _ _ | .fileWriteAt _ _ _ _=>instDecidableTrue

def twoFiles:List Call:=
 [.filesysCreate nameA 512 (fun _=>0),.filesysCreate nameD (62*512) (fun _=>0)]
def twoFilesMounted:Option Session:=
 ((result (filesysInit direct true) (boot {blankDevice id with size:=72})).bind fun r=>
  exec (next direct) (fun fs c=>c.Allowed fs) r.2 twoFiles).bind remount

lemma twoFiles_consistent {s:Session}(h:twoFilesMounted=some s):s.Consistent:=by
 obtain ⟨fs,hfs,hr⟩:=bind_eq_some_iff.1 h
 obtain ⟨r,init,run⟩:=bind_eq_some_iff.1 hfs
 have start:Owning r.2:=(filesysInit_owning (by decide)).result init
 exact (start.runs (exec_runs run)).remount hr

def writeAndRemove:List Call:=
 [.filesysOpen nameA (fun _=>0),.fileWriteAt 2 (fun _=>7) 512 0,.filesysRemove nameA (fun _=>0),
  .fileClose 2]

def createB (size:ℤ):Call:=.filesysCreate nameB size (fun _=>0)
variable {s u:Session}

/-- In every run of careful calls, the header of every file that exists is on
disk as `inode_create` wrote it. -/
theorem headers_kept {calls:List Call}(consistent:s.Consistent)
 (run:Runs Session.next Session.Careful s calls u):
 ∀e∈u.named++condemned u.fs.inodes,decodeInode (u.fs.dev.disk e.1)=e.2:=by
 obtain ⟨L,content,mounted⟩:=consistent.runs run
 intro e he
 have header:=mounted.header (e:=e) (by rw[append_assoc];exact mem_append_right _ he)
 exact congrArg Prod.snd header

theorem headers_kept_reused:∃s u,s.Consistent ∧
 Runs Session.next Session.Careful s (writeAndRemove++[createB 512]) u ∧
 (4,⟨5,512,inodeMagic⟩)∈u.named ∧
 ∀e∈u.named++condemned u.fs.inodes,decodeInode (u.fs.dev.disk e.1)=e.2:=by
 have found:twoFilesMounted.any (fun s=>
   (exec Session.next Session.Careful s (writeAndRemove++[createB 512])).any
    (fun u=>(4,⟨5,512,inodeMagic⟩)∈u.named))=true:=by
  decide +kernel
 obtain ⟨s,hs,found⟩:=(Option.any_eq_true _ _).1 found
 obtain ⟨u,run,named⟩:=exec_any found
 have consistent:=twoFiles_consistent hs
 exact ⟨s,u,consistent,run,of_decide_eq_true named,headers_kept consistent run⟩

/-- The block of a removed file is written over the header of a new one. -/
theorem evicted_block_clobbers_header:∃s u,s.Consistent ∧
 Runs Session.next (fun s c=>c.Allowed s.fs) s (writeAndRemove ++
  [createB 0,.filesysCreate (shortName 99 (by decide)) 0 (fun _=>0),
   .filesysOpen (shortName 100 (by decide)) (fun _=>0),
   .fileWriteAt 3 (fun _=>9) (62*512) 0]) u ∧
 (5,⟨0,0,inodeMagic⟩)∈u.named ∧ decodeInode (u.fs.dev.disk 5)=⟨0x07070707,0,0⟩:=by
 have found:twoFilesMounted.any (fun s=>
   (exec Session.next (fun s c=>c.Allowed s.fs) s (writeAndRemove ++
    [createB 0,.filesysCreate (shortName 99 (by decide)) 0 (fun _=>0),
     .filesysOpen (shortName 100 (by decide)) (fun _=>0),
     .fileWriteAt 3 (fun _=>9) (62*512) 0])).any
    (fun u=>decide ((5,⟨0,0,inodeMagic⟩)∈u.named) &&
     decide (decodeInode (u.fs.dev.disk 5)=⟨0x07070707,0,0⟩)))=true:=by
  decide +kernel
 obtain ⟨s,hs,found⟩:=(Option.any_eq_true _ _).1 found
 obtain ⟨u,run,ends⟩:=exec_any found
 simp only[Bool.and_eq_true,decide_eq_true_eq] at ends
 exact ⟨s,u,twoFiles_consistent hs,run,ends⟩

/-- Where no stale block is cached for the data of a new file, they read as zeros. -/
theorem new_file_zero {calls:List Call}{name:CString}{size:ℤ}{stack:DirEntry}
 {fs':Fs}(consistent:s.Consistent)
 (run:Runs Session.next Session.Careful s calls u)
 (careful:u.Careful (.filesysCreate name size stack))
 (fresh:∀e,planned u.fs.freeMap size=some e → ∀t∈dataSectors e.2,StaleFree (u.fs.dev.cell t))
 (create:result (filesysCreate cached name size stack) u.fs=some (true,fs')):
 ∃e,planned u.fs.freeMap size=some e ∧ decodeInode (fs'.dev.disk e.1)=e.2 ∧
  (∀t∈dataSectors e.2,fs'.dev.logical t=0) ∧
  ∀count offset,Holds (readLoop cached e.2 (count+1) count offset) fs'.dev
   (fun bytes _=>∀b∈bytes,b=0) AnyFault:=by
 obtain ⟨L,content,mounted⟩:=consistent.runs run
 obtain ⟨⟨hl,hl'⟩,sound⟩:=careful
 have spec:Holds (filesysCreate cached name size stack) u.fs _ _:=
  filesysCreate_mounted mounted true_plain hl (by omega) sound
 rcases spec.result create with ⟨hf,-⟩|⟨-,e,content',plan,-,mounted',zero⟩
 · cases hf
 have data:∀t∈dataSectors e.2,fs'.dev.logical t=0:=by
  intro t ht
  rw[←cell_logical]
  exact zero t ht (fresh e plan t ht)
 refine ⟨e,plan,congrArg Prod.snd (mounted'.header (e:=e) (by simp)),data,fun count offset=>?_⟩
 obtain ⟨hs,-,core⟩:=mounted'
 have he:e∈live (L.system++e::u.named) fs'.inodes:=by simp[live]
 refine (readLoop_spec cachedMedium _ count offset core.meets.1 (fun _ _=>trivial)
  (Nat.lt_succ_self _)).imp ?_
 rintro bytes d ⟨-,rfl⟩ b hb
 obtain ⟨k,hk,rfl⟩:=List.mem_map.1 hb
 have inside:((offset+k:ℕ):ℤ)<e.2.length:=by
  have:=mem_range.1 hk
  unfold readable at this
  omega
 have hlogical:(cachedMedium.cell fs'.dev (byteToSector e.2 (offset+k))).logical=0:=by
  rw[←data _ (core.sector he inside).2,←cell_logical]
  rfl
 rw[dataByte,hlogical,sectorByte]
 split<;>rfl

theorem new_file_zero_apart:∃s u fs',s.Consistent ∧
 Runs Session.next Session.Careful s writeAndRemove u ∧
 result (filesysCreate cached (shortName 98 (by decide)) 1024 (fun _=>0)) u.fs=some (true,fs') ∧
 fs'.dev.logical 69=0 ∧ fs'.dev.logical 70=0:=by
 have found:twoFilesMounted.any (fun s=>
   (exec Session.next Session.Careful s writeAndRemove).any (fun u=>
    decide (u.Careful (createB 1024)) &&
    decide (planned u.fs.freeMap 1024=some (4,⟨69,1024,inodeMagic⟩)) &&
    ((u.fs.dev.cached 69).isNone && (u.fs.dev.cached 70).isNone) &&
    (result (filesysCreate cached (shortName 98 (by decide)) 1024 (fun _=>0)) u.fs).any
     (·.1)))=true:=by
  decide +kernel
 obtain ⟨s,hs,found⟩:=(Option.any_eq_true _ _).1 found
 obtain ⟨u,run,ends⟩:=exec_any found
 simp only[Bool.and_eq_true,decide_eq_true_eq,isNone_iff_eq_none,Option.any_eq_true] at ends
 obtain ⟨⟨⟨careful,plan⟩,none₆₉,none₇₀⟩,⟨ok,fs'⟩,create,rfl⟩:=ends
 have consistent:=twoFiles_consistent hs
 have sectors:dataSectors ⟨69,1024,inodeMagic⟩=[69,70]:=by decide
 have fresh:∀e,planned u.fs.freeMap 1024=some e → ∀t∈dataSectors e.2,StaleFree (u.fs.dev.cell t):=by
  intro e he t ht buffer dirty hb
  obtain rfl:=Option.some.inj (plan.symm.trans he)
  rw[sectors] at ht
  have none:u.fs.dev.cached t=none:=by
   rcases mem_cons.1 ht with rfl|ht
   · exact none₆₉
   · rw[mem_singleton.1 ht]
     exact none₇₀
  simp[Device.cell,none] at hb
 obtain ⟨e,he,-,zero,-⟩:=new_file_zero consistent run careful fresh create
 obtain rfl:=Option.some.inj (plan.symm.trans he)
 rw[sectors] at zero
 exact ⟨s,u,fs',consistent,run,create,zero 69 (by simp),zero 70 (by simp)⟩

/-- A new file reads as what a removed one had in the cache. -/
theorem stale_block_in_new_file:∃s u fs',s.Consistent ∧
 Runs Session.next Session.Careful s writeAndRemove u ∧ u.Careful (createB 512) ∧
 result (filesysCreate cached (shortName 98 (by decide)) 512 (fun _=>0)) u.fs=some (true,fs') ∧
 planned u.fs.freeMap 512=some (4,⟨5,512,inodeMagic⟩) ∧ fs'.dev.logical 5 0=7:=by
 have found:twoFilesMounted.any (fun s=>
   (exec Session.next Session.Careful s writeAndRemove).any (fun u=>
    decide (u.Careful (createB 512)) &&
    decide (planned u.fs.freeMap 512=some (4,⟨5,512,inodeMagic⟩)) &&
    (result (filesysCreate cached (shortName 98 (by decide)) 512 (fun _=>0)) u.fs).any
     (fun r=>r.1 && decide (r.2.dev.logical 5 0=7))))=true:=by
  decide +kernel
 obtain ⟨s,hs,found⟩:=(Option.any_eq_true _ _).1 found
 obtain ⟨u,run,ends⟩:=exec_any found
 simp only[Bool.and_eq_true,decide_eq_true_eq,Option.any_eq_true] at ends
 obtain ⟨⟨careful,plan⟩,⟨ok,fs'⟩,create,rfl,stale⟩:=ends
 exact ⟨s,u,fs',twoFiles_consistent hs,run,careful,create,plan,stale⟩

end Pintos.Filesys
