import Pintos.Assertions

namespace Pintos.Assertions
open ExecHoare ExecRuns Interaction Paging Process Syscall List Option
open Bitmap Cache Directory InodeTable InodeData Filesys FileCalls UserStrings

section
variable {fs:Fs}

lemma Owning.inOrder (h:Owning fs):InOrder directMedium fs:=by
 obtain ⟨L,content,named,mounted,tracks⟩:=h
 refine ⟨L,content,Uncached,named,mounted,uncached_plain,fun name=>?_,fun _ e _=>?_⟩
 · exact tracks.sound mounted (.filesysOpen name fun _=>0)
 · exact Uncached.notDirty (s:=e.1) rfl

lemma Owning.inOrder_cold (h:Owning fs):InOrder missMedium (coldCache fs):=by
 obtain ⟨L,content,mounted,tracks⟩:=h.tracked
 have known:=fun name=>tracks.sound mounted (.filesysOpen name fun _=>0)
 obtain ⟨hs,handles,core⟩:=mounted
 refine ⟨L,content,fun _ _=>True,namedFiles fs,⟨hs,handles,core.cold rfl rfl⟩,
  ⟨fun _ _ _=>trivial,fun _ _ _ _=>trivial,fun _ _ _ _=>trivial⟩,known,?_⟩
 intro size e _ buffer hb
 have cell:(missMedium.cell (coldCache fs).dev e.1).block=none:=by
  change Option.map _ _=none
  rw[cached_empty rfl e.1]
  rfl
 rw[cell] at hb
 cases hb

def Roomy (io: SectorIO)(fs:Fs):Prop:=
 (result (dirOpenRoot io) fs).any (fun r=>
  r.1.isSome && (result (freeMapAllocate io 1) r.2).any (fun r=>r.1.isSome))=true
instance (io: SectorIO)(fs:Fs):Decidable (Roomy io fs):=inferInstanceAs (Decidable (_=_))
def openFirst:List Filesys.Call:=
 [.filesysCreate nameA 512 (fun _=>0),.filesysOpen nameA (fun _=>0)]

lemma exists_opened (test:Fs→Bool)
 (found:(result (filesysInit direct true) (boot smallDevice)).any (fun r=>
  (ExecRuns.exec (Filesys.next direct) (fun fs c=>c.Allowed fs) r.2 openFirst).any test)=
   true):∃fs,Owning fs ∧ test fs=true:=by
 obtain ⟨fs₀,fs,init,run,facts⟩:=exec_formatted _ _ found
 have start:Owning fs₀:=(filesysInit_owning (by decide)).result init
 exact ⟨fs,start.runs run,facts⟩

lemma exists_roomy:∃fs,Owning fs ∧ LiveHandle fs 2 ∧ Roomy direct fs ∧
 Roomy cached (coldCache fs):=by
 obtain ⟨fs,owning,facts⟩:=exists_opened
  (fun fs=>LiveHandle fs 2 ∧ Roomy direct fs ∧ Roomy cached (coldCache fs)) (by decide +kernel)
 exact ⟨fs,owning,of_decide_eq_true facts⟩

variable {io: SectorIO}{env:Env}{m:Memory}{s:State}{F:Stop→Prop}{a:Addr}{n:ℕ}

lemma openName_asserts {fs:Fs}{stack:DirEntry}(roomy:Roomy io fs)
 {Q:Option ℕ→Fs→Prop}{E:Fault→Prop}(h:Holds (openName io none stack) fs Q E):
 E .assertion:=by
 obtain ⟨⟨dir,fs₁⟩,opened,roomy⟩:=(Option.any_eq_true _ _).1 roomy
 obtain ⟨p,rfl⟩:=isSome_iff_exists.1 (Bool.and_eq_true_iff.1 roomy).1
 unfold openName at h
 rwa[holds_bind,holds_of_ok (result_eq_some.1 opened)] at h

lemma filesysCreate_asserts {fs:Fs}{name:CString}{size:ℤ}{stack:DirEntry}
 (roomy:Roomy io fs)(negative:size<0){Q:Bool→Fs→Prop}{E:Fault→Prop}
 (h:Holds (Filesys.filesysCreate io name size stack) fs Q E):E .assertion:=by
 obtain ⟨⟨dir,fs₁⟩,opened,roomy⟩:=(Option.any_eq_true _ _).1 roomy
 obtain ⟨hdir,hsector⟩:=Bool.and_eq_true_iff.1 roomy
 obtain ⟨p,rfl⟩:=isSome_iff_exists.1 hdir
 obtain ⟨⟨sector,fs₂⟩,allocated,hsector⟩:=(Option.any_eq_true _ _).1 hsector
 obtain ⟨sector,rfl⟩:=isSome_iff_exists.1 hsector
 unfold Filesys.filesysCreate createIn inodeCreate at h
 rw[holds_bind,holds_of_ok (result_eq_some.1 opened),holds_bind,holds_bind,
  holds_of_ok (result_eq_some.1 allocated)] at h
 simp only[if_pos negative] at h
 exact h

lemma exec_asserts (roomy:Roomy io s.fs)(pages:env.pages s.pallocs≠none)
 (h:StringAt m n a)(harmful:¬(ArgCall.exec a).Harmless m){Q:ℤ→State→Prop}
 (safe:Holds (run (handle io env m) (exec a)) s Q F):F (.fault .assertion):=by
 obtain ⟨⟨ha,nonempty⟩,blanks⟩:=not_or.1 harmful |>.imp_left not_or.1
 rw[string_eq_nil h] at nonempty
 have rest:=(holds_guarded.1 safe).2 (not_rejected ha h.first)
 rw[holds_run_bind,holds_byte reads,if_neg nonempty,holds_run_bind,holds_palloc] at rest
 obtain ⟨page,hp⟩:=ne_none_iff_exists'.1 pages
 simp only[hp] at rest
 rw[holds_run_bind,holds_strlcpy reads h ha,holds_run_bind] at rest
 have wordless:strtok ((string m a).val.take (pgSize-1))=none:=
  (strtok_eq_none _).2 fun b hb=>not_not.1 fun hne=>blanks ⟨b,hb,hne⟩
 rw[wordless,Process.filesysOpen,holds_run_ask] at rest
 replace rest:Holds (onFiles (openName io none env.stack)) _ _ F:=rest
 rw[holds_onFiles] at rest
 exact openName_asserts roomy rest

lemma create_asserts {size:ℕ}(roomy:Roomy io s.fs)(h:StringAt m n a)(bound:size<2^32)
 (harmful:¬(size<2^31 ∨ (a=0 ∨ (string m a).val=[]) ∨ 14<(string m a).val.length))
 {Q:Bool→State→Prop}(safe:Holds (run (handle io env m) (create a size)) s Q F):
 F (.fault .assertion):=by
 obtain ⟨large,⟨ha,nonempty⟩,short⟩:=
  not_or.1 harmful |>.imp_right fun h=>not_or.1 h |>.imp_left not_or.1
 rw[string_eq_nil h] at nonempty
 rw[string_length h] at short
 have rest:=(holds_guarded.1 safe).2 (not_rejected ha h.first)
 rw[holds_run_bind,holds_byte reads,if_neg nonempty,holds_run_bind,holds_strlen reads h ha,
  if_neg short,holds_locked,holds_run_ask] at rest
 exact filesysCreate_asserts roomy (toInt_neg (by omega) bound) (holds_onFiles.1 rest)

lemma seek_asserts {fd:ℤ}{position f:ℕ}(range:2≤fd ∧ fd<fdsLength)
 (hf:s.fds fd.toNat=some f)(large:2^31≤position)(bound:position<2^32)
 {Q:Unit→State→Prop}(safe:Holds (run (handle io env m) (seek fd position)) s Q F):
 F (.assertion .newPos):=by
 have good:¬badFd fd:=by
  unfold badFd
  omega
 unfold seek lockedFd at safe
 rw[if_neg good,holds_locked] at safe
 have rest:=holds_run_ask.1 (holds_run_bind.1 safe)
 change Holds (run _ (Process.fileSeek (s.fds fd.toNat) _)) s _ F at rest
 rw[hf,Process.fileSeek,if_pos (toInt_neg large bound)] at rest
 exact holds_run_stop.1 rest

lemma perform_asserts {c:ArgCall}(mapped:c.Mapped m)(harmful:¬c.Harmless m)
 {fs:Fs}(roomy:Roomy io fs)(live:LiveHandle fs 2)
 (fault:¬F (.fault .assertion))(newPos:¬F (.assertion .newPos)):
 ∃env s,s.fs=fs ∧ c.Denotes s ∧ ¬Holds (run (handle io env m) (perform c)) s (fun _ _=>True) F:=by
 refine ⟨⟨fun _=>0,fun _=>some 0,1⟩,⟨fs,fun _=>some 2,0⟩,rfl,?_,fun safe=>?_⟩
 · cases c with
   | exec a | create a size | openFile a=>trivial
   | seek fd position | read fd a size=>exact ⟨2,rfl,live⟩
   | write fd a size=>exact .inr ⟨2,rfl,live⟩
 · cases c with
   | exec a=>
    obtain ⟨n,h⟩:=mapped
    exact fault (exec_asserts roomy (some_ne_none 0) h harmful (holds_returns.1 safe))
   | create a size=>
    obtain ⟨n,h⟩:=mapped
    exact fault (create_asserts roomy h size.toNat_lt harmful (holds_returns.1 safe))
   | seek fd position=>
    exact newPos (seek_asserts mapped rfl (Nat.not_lt.1 harmful) position.toNat_lt
     (holds_run_bind.1 safe))
   | openFile a | read fd a size | write fd a size=>exact harmful trivial

end

section
variable (n:ℕ)

/-- Room for a file of any length. The sectors from 2 on hold the free map. -/
def wideSize:ℕ:=4294967295
def wideLayout:Layout where
 map:=⟨2,536870912,inodeMagic⟩
 root:=⟨1048578,320,inodeMagic⟩
 rootLength:=rfl
def wideFile:InodeDisk:=⟨1048580,n,inodeMagic⟩
def wideHandles:List (ℕ×File):=[(1048579,⟨1,1,0,false⟩),(0,⟨0,0,0,false⟩)]
def wideInodes:List Inode:=[⟨1,1048579,1,true,0,wideFile n⟩,⟨0,0,1,false,0,wideLayout.map⟩]

def wideFs:Fs where
 dev:={blankDevice id with
  size:=wideSize
  disk:=fun s=>
   if s=0 then encodeInode wideLayout.map
   else if s=1 then encodeInode wideLayout.root
   else if s=1048579 then encodeInode (wideFile n)
   else fun _=>0}
 freeMap:=replicate wideSize true
 freeMapFile:=some 0
 inodes:=⟨wideInodes n,2⟩
 files:=wideHandles.map (·.2)
 nextFile:=2

def wideEntries:List Entry:=[(0,wideLayout.map),(1,wideLayout.root),(1048579,wideFile n)]

lemma wideHandles_handles:Handles (fixed (wideFs n)) wideHandles where
 files:=rfl
 ids:=show ((wideHandles.map (·.2)).map (·.id)).Nodup by decide
 bound:=show ∀f∈wideHandles.map (·.2),f.id<2 by decide
 writable:=show ∀f∈wideHandles.map (·.2),f.denyWrite=false by decide
 map:=⟨⟨0,0,0,false⟩,rfl,by decide⟩
 apart:=show ∀h∈wideHandles,some 0≠some h.2.id → h.1≠0 ∧ h.1≠1 by decide

variable {n}

variable (small:n<2^31)
include small

lemma wideEntries_proper:∀e∈wideEntries n,Proper wideSize e.2:=by
 unfold wideEntries wideLayout wideFile wideSize
 simp only[forall_mem_cons]
 refine ⟨⟨?_,?_,?_⟩,⟨?_,?_,?_⟩,⟨?_,?_,?_⟩,nofun⟩<;>dsimp only<;>omega

lemma wide_fileSectors:bytesToSectors (n:ℤ)≤4290772993:=by
 rcases Int.lt_or_le n (2^31-511) with few|many
 · rw[bytesToSectors_eq (by omega) few]
   omega
 · exact (bytesToSectors_wraps many (by omega)).2

lemma wideEntries_claimed:Claimed (wideFs n).freeMap ((wideEntries n).flatMap extent++[]):=by
 have last:=wide_fileSectors small
 have sectors:(wideEntries n).flatMap extent++[]=(0::range' 2 1048576) ++
   ([1,1048578]++1048579::range' 1048580 (bytesToSectors n)):=by
  simp only[wideEntries,flatMap_cons,flatMap_nil,append_nil]
  rfl
 rw[sectors]
 constructor
 · simp only[nodup_append,nodup_cons,mem_cons,mem_range'_1]
   refine ⟨⟨by omega,nodup_range' ..⟩,⟨by simp,⟨by omega,nodup_range' ..⟩,?_⟩,?_⟩
   · intro a ha b hb
     simp at ha
     omega
   · intro a ha b hb
     simp at hb
     omega
 · intro t ht
   have lt:t<wideSize:=by
    simp at ht
    unfold wideSize
    omega
   change (replicate _ true)[t]?=_
   rw[getElem?_replicate,if_pos lt]

lemma wide_headers (e:Entry)(he:e∈wideEntries n):
 IsHeader (directMedium.cell (wideFs n).dev e.1) e.2:=by
 refine ⟨Uncached.notDirty (s:=e.1) rfl,?_⟩
 have disk:(wideFs n).dev.disk e.1=encodeInode e.2 ∧ e.2.start<2^32 ∧ e.2.magic<2^32:=by
  simp only[wideEntries,mem_cons,not_mem_nil,or_false] at he
  have magic:inodeMagic<2^32:=by decide
  rcases he with rfl|rfl|rfl
  · exact ⟨rfl,show 2<2^32 by decide,magic⟩
  · exact ⟨rfl,show 1048578<2^32 by decide,magic⟩
  · exact ⟨rfl,show 1048580<2^32 by decide,magic⟩
 have proper:=wideEntries_proper small e he
 exact (congrArg decodeInode disk.1).trans (decode_encode disk.2.1 proper.nonneg proper.lt disk.2.2)

lemma wide_core:
 Core directMedium (Framed wideLayout (fun _=>0) Uncached) (wideLayout.system++[]) []
  (held wideHandles) (fixed (wideFs n)) (wideFs n) where
 meets:=⟨trivial,fun t=>⟨⟨rfl,fun ht=>⟨nofun,ht▸rfl⟩⟩,fun e he ht=>ht▸wide_headers small e he⟩⟩
 proper:=wideEntries_proper small
 mapSize:=length_replicate
 small:=show wideSize<2^32 by decide
 claimed:=wideEntries_claimed small
 opened:=show ∀i∈wideInodes n,(i.sector,i.data)∈wideEntries n by
  simp[wideInodes,wideEntries]
 counted:=by
  refine ⟨⟨show [1,0].Nodup by decide,show [1048579,0].Nodup by decide,
   show ∀i∈wideInodes n,i.id<2 by simp[wideInodes]⟩,?_,
   show ∀r∈held wideHandles,∃i∈wideInodes n,i.id=r.2 ∧ i.sector=r.1 by
    simp[held,wideHandles,wideInodes]⟩
  change ∀i∈wideInodes n,_
  simp[wideInodes,openers,held,wideHandles]
 fixed:=rfl

lemma wide_inOrder:InOrder directMedium (wideFs n):=by
 refine ⟨wideLayout,fun _=>0,Uncached,[],⟨wideHandles,wideHandles_handles n,
  wide_core small⟩,uncached_plain,fun name x hx hn=>?_,fun _ e _=>
  Uncached.notDirty (s:=e.1) rfl⟩
 have used:x.inodeSector∈usedSectors (fun _=>0):=
  List.mem_map_of_mem (mem_filter.2 ⟨hx,names_inUse hn⟩)
 cases used

lemma wide_reads (size:ℤ):Holds (FileCalls.fileRead direct 1 size) (wideFs n)
  (fun bytes _=>bytes.length=min size.toNat n) NoFault:=by
 have core:=wide_core small
 have file:(1048579,(⟨1,1,0,false⟩:File))∈wideHandles:=by decide
 have entry:(1048579,wideFile n)∈live (wideLayout.system++[]) (wideFs n).inodes:=by
  change _∈wideEntries n
  simp[wideEntries]
 unfold FileCalls.fileRead
 rw[holds_bind,holds_theFile ((wideHandles_handles n).find file)]
 refine (inodeReadAt_core core (held_mem file) entry rfl size _).seq ?_
 rintro bytes fs' ⟨-,rfl⟩
 change (List.map _ _).length=_
 rw[length_map,length_range]
 change min size.toNat ((n:ℤ)-(0:ℕ)).toNat=_
 omega

end
variable {m:Memory}{F:Stop→Prop}

lemma read_faults {fd:ℤ}{a:Addr}{size:UInt32}(mapped:(ArgCall.read fd a size).Mapped m)
 (unstorable:¬(ArgCall.read fd a size).Storable m)(readOnly:¬F .readOnly):
 ∃env s,InOrder directMedium s.fs ∧ (ArgCall.read fd a size).Denotes s ∧
  ¬Holds (run (handle direct env m) (perform (.read fd a size))) s (fun _ _=>True) F:=by
 obtain ⟨⟨low,high⟩,user⟩:=mapped
 obtain ⟨ha,small,blocked⟩:=not_or.1 unstorable |>.imp_right not_or.1
 push Not at blocked
 obtain ⟨i,hi,blocked⟩:=blocked
 have bound:i+1<2^31:=by omega
 refine ⟨⟨fun _=>0,fun _=>none,1⟩,⟨wideFs (i+1),fun _=>some 1,0⟩,wide_inOrder bound,
  ⟨1,rfl,show (1:ℕ)∈[1,0] by decide,show some 0≠some 1 by decide⟩,fun safe=>?_⟩
 have rest:=holds_returns.1 safe
 have range:¬(fd≤0 ∨ fd=1 ∨ fdsLength<fd):=by omega
 unfold Syscall.read at rest
 rw[if_neg range] at rest
 have first:UserByte m.pd a:=by
  have byte:=user 0 (by omega)
  rwa[show a+UInt32.ofNat 0=a from UInt32.add_zero a] at byte
 replace rest:=(holds_guarded.1 rest).2 (not_rejected ha first)
 rw[holds_locked,holds_run_bind] at rest
 replace rest:=holds_run_bind.1 (holds_run_ask.1 rest)
 replace rest:=holds_onFiles.1 (holds_bind.1 (holds_run_ask.1 rest))
 obtain ⟨bytes,fs,hr,length⟩:=(wide_reads bound (toInt size.toNat)).returns
 rw[holds_of_ok hr,if_neg] at rest
 · exact readOnly rest
 · intro writable
   refine blocked (writable i ?_)
   rw[length,toInt_nonneg (by omega)]
   omega

/-- Whatever the state of the process: read and written without a cache, the file system
ends every call with a result or the exit of the process exactly when its arguments are harmless
and the kernel may store what it reads, and with the cache no assertion fails exactly when
they are harmless. -/
theorem arguments_harmless_iff {c:ArgCall}(mapped:c.Mapped m):
 ((∀env s,InOrder directMedium s.fs → c.Denotes s →
   Holds (run (handle direct env m) (perform c)) s (fun _ _=>True) Exited) ↔
  c.Harmless m ∧ c.Storable m) ∧
 ((∀env s,InOrder missMedium s.fs → c.Denotes s →
   Holds (run (handle cached env m) (perform c)) s (fun _ _=>True) NotAsserted) ↔
  c.Harmless m):=by
 obtain ⟨fs,owning,live,roomy,roomyCold⟩:=exists_roomy
 refine ⟨⟨fun safe=>⟨?_,?_⟩,fun ⟨harmless,storable⟩ env s order denotes=>?_⟩,
  ⟨fun safe=>?_,fun harmless env s order denotes=>?_⟩⟩
 · by_contra harmful
   obtain ⟨env,s,rfl,denotes,unsafely⟩:=perform_asserts mapped harmful roomy live (F:=Exited) id id
   exact unsafely (safe env s (Owning.inOrder owning) denotes)
 · by_contra unstorable
   cases c with
   | read fd a size=>
    obtain ⟨env,s,order,denotes,unsafely⟩:=read_faults mapped unstorable (F:=Exited) id
    exact unsafely (safe env s order denotes)
   | exec a | create a size | openFile a | seek fd position=>exact unstorable trivial
   | write fd a size=>exact unstorable trivial
 · have medium:∀e,directMedium.E e → Exited (.fault e):=fun _=>False.elim
   exact perform_safe directMedium Exited order mapped denotes (fun _=>trivial) medium harmless
    (.inr storable)
 · by_contra harmful
   obtain ⟨env,s,hs,denotes,unsafely⟩:=
    perform_asserts mapped harmful roomyCold live (F:=NotAsserted) (fun h=>h rfl) id
   exact unsafely (safe env s (hs▸Owning.inOrder_cold owning) denotes)
 · have medium:∀e,missMedium.E e → NotAsserted (.fault e):=by
    rintro e rfl
    exact nofun
   exact perform_safe missMedium NotAsserted order mapped denotes (fun _=>trivial) medium
    harmless (.inl trivial)

def strings:Memory where
 pd:=
  {page:=0
   table:=fun i=>if i.val=767 then some ⟨1,fun j=>
    if j.val=1023 then pteCreateUser 2 true
    else if j.val=1022 then pteCreateUser 3 false else .zero⟩ else none}
 byte a:=if a=0xbffffff0 then 97 else if a=0xbffffff8 then 32 else 0

lemma strings_mapped:StringAt strings 1 0xbffffff0 ∧ StringAt strings 1 0xbffffff8:=
 ⟨⟨by decide,by decide,by decide,by decide⟩,⟨by decide,by decide,by decide,by decide⟩⟩
def stopOf (s:State)(c:ArgCall):Option Stop:=
 match (run (handle direct ⟨fun _=>0,fun _=>some 0,1⟩ strings) (perform c)).run s with
 | .ok _=>none
 | .error e=>some e

/-- A command line that is blank, a size and a position of `0x80000000`, and a buffer in
read-only memory. -/
theorem arguments_trip:∃fs,InOrder directMedium fs ∧
 (∀c∈[ArgCall.exec 0xbffffff8,.create 0xbffffff0 0x80000000,.seek 2 0x80000000,
  .read 2 0xbfffe000 1],c.Mapped strings ∧ c.Denotes ⟨fs,fun _=>some 2,0⟩) ∧
 stopOf ⟨fs,fun _=>some 2,0⟩ (.exec 0xbffffff8)=some (.fault .assertion) ∧
 stopOf ⟨fs,fun _=>some 2,0⟩ (.create 0xbffffff0 0x80000000)=some (.fault .assertion) ∧
 stopOf ⟨fs,fun _=>some 2,0⟩ (.seek 2 0x80000000)=some (.assertion .newPos) ∧
 stopOf ⟨fs,fun _=>some 2,0⟩ (.read 2 0xbfffe000 1)=some .readOnly:=by
 obtain ⟨fs,owning,facts⟩:=exists_opened (fun fs=>LiveHandle fs 2 ∧
  stopOf ⟨fs,fun _=>some 2,0⟩ (.exec 0xbffffff8)=some (.fault .assertion) ∧
  stopOf ⟨fs,fun _=>some 2,0⟩ (.create 0xbffffff0 0x80000000)=some (.fault .assertion) ∧
  stopOf ⟨fs,fun _=>some 2,0⟩ (.seek 2 0x80000000)=some (.assertion .newPos) ∧
  stopOf ⟨fs,fun _=>some 2,0⟩ (.read 2 0xbfffe000 1)=some .readOnly) (by decide +kernel)
 obtain ⟨live,stops⟩:=of_decide_eq_true facts
 refine ⟨fs,Owning.inOrder owning,?_,stops⟩
 simp only[forall_mem_cons]
 have range:(2:ℤ)≤2 ∧ (2:ℤ)<fdsLength:=by decide
 exact ⟨⟨⟨1,strings_mapped.2⟩,trivial⟩,⟨⟨1,strings_mapped.1⟩,trivial⟩,
  ⟨range,2,rfl,live⟩,⟨⟨range,by decide⟩,2,rfl,live⟩,nofun⟩

theorem arguments_harmless_create:(ArgCall.create 0xbffffff0 512).Mapped strings ∧
 ∀env s,InOrder directMedium s.fs →
  Holds (run (handle direct env strings) (perform (.create 0xbffffff0 512))) s
   (fun _ _=>True) Exited:=by
 have mapped:(ArgCall.create 0xbffffff0 512).Mapped strings:=⟨1,strings_mapped.1⟩
 have small:(512:UInt32).toNat<2^31:=by decide
 have safe:=(arguments_harmless_iff mapped).1.2 ⟨.inl small,trivial⟩
 exact ⟨mapped,fun env s order=>safe env s order trivial⟩

end Pintos.Assertions
