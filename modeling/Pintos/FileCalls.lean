import Pintos.FilesysCalls
import Pintos.FilesysKeeps
import Pintos.Process

/-!
# The file system behind the system calls

The functions of `file.c` that move a position, and the calls that processes make
as commands on the file system.
-/
namespace Pintos.FileCalls
open ExecHoare Paging Bitmap Cache Directory InodeTable InodeData Filesys List
open Process (FsCall Name)

def stringFrom (m:Memory):ℕ→Addr→List UInt8
 | 0,_=>[]
 | turns+1,a=>if m.byte a=0 then [] else m.byte a::stringFrom m turns (a+1)

lemma zero_notMem_stringFrom (m:Memory)(turns:ℕ)(a:Addr):0∉stringFrom m turns a:=by
 induction turns generalizing a with
 | zero=>exact not_mem_nil
 | succ turns ih=>
  unfold stringFrom
  split
  · exact not_mem_nil
  · rename_i h
    rw[mem_cons,not_or]
    exact ⟨Ne.symm h,ih _⟩

def string (m:Memory)(a:Addr):CString:=⟨_,zero_notMem_stringFrom m (2^32) a⟩
lemma zero_notMem_takeWhile (l:List UInt8):0∉l.takeWhile (· != 0):=fun h=>by
 simpa using mem_takeWhile_imp h
def nameOf (m:Memory):Name→Option CString
 | .user a=>some (string m a)
 | .copy s=>s.map fun l=>⟨_,zero_notMem_takeWhile l⟩

section
variable (io: SectorIO)

def setPos (f:ℕ)(pos:ℤ):FsCmd Unit:=
 modify fun s=>
  {s with files:=KeyedList.set File.id f (fun file=>{file with pos}) s.files}

def fileRead (f:ℕ)(size:ℤ):FsCmd (List UInt8):=do
 let file←theFile f
 let bytes←inodeReadAt io file.inode size file.pos.toNat
 setPos f (file.pos+bytes.length)
 return bytes

def fileWrite (f:ℕ)(buffer:ℕ→UInt8)(size:ℤ):FsCmd ℤ:=do
 let file←theFile f
 let written←inodeWriteAt io file.inode buffer size file.pos.toNat
 setPos f (file.pos+written)
 return written

def fileLength (f:ℕ):FsCmd ℤ:=do
 let file←theFile f
 let inode←theInode file.inode
 return inode.data.length

/-- The assertion on the position is made by the caller. -/
def fileSeek (f:ℕ)(pos:ℤ):FsCmd Unit:=do
 let _←theFile f
 setPos f pos

def fileTell (f:ℕ):FsCmd ℤ:=do
 let file←theFile f
 return file.pos
def onName {α:Type}(name:Option CString)(f:CString→FsCmd α):FsCmd α:=
 match name with
 | some name=>f name
 | none=>throw .assertion

/-- `dir_lookup` is not called when the root directory cannot be opened. -/
def openName (name:Option CString)(stack:DirEntry):FsCmd (Option ℕ):=
 match name with
 | some name=>Filesys.filesysOpen io name stack
 | none=>do
  match←dirOpenRoot io with
  | some _=>throw .assertion
  | none=>fileOpen io none

def fsCall (stack:DirEntry)(m:Memory):(c:FsCall) → FsCmd c.Answer
 | .filesysCreate name size=>
  onName (nameOf m name) fun name=>Filesys.filesysCreate io name size stack
 | .filesysRemove name=>onName (nameOf m name) fun name=>Filesys.filesysRemove io name stack
 | .filesysOpen name=>openName io (nameOf m name) stack
 | .inodeLength f=>fileLength f
 | .inodeReadAt f _ size=>fileRead io f size
 | .inodeWriteAt f a size=>fileWrite io f (fun k=>m.byte (a+UInt32.ofNat k)) size
 | .inodeClose f=>Filesys.fileClose io (some f)
 | .filesysDone=>Filesys.filesysDone io

end

def handles (fs:Fs):List ℕ×ℕ:=(fs.files.map File.id,fs.nextFile)
instance:Blind handles where
 device _ _:=rfl
 bits _ _:=rfl

section
variable {io: SectorIO}

lemma keeps_inodeOpen (sector:ℕ):Keeps handles (Filesys.inodeOpen sector):=by
 intro fs
 refine holds_bind.2 (holds_get.2 ?_)
 cases openedAt fs.inodes sector with
 | some i=>exact rfl
 | none=>
  refine (keeps_onDevice (v:=handles) _ fs).seq fun ok fs₁ h₁=>?_
  cases ok with
  | false=>exact h₁
  | true=>exact (keeps_onDevice (v:=handles) _ fs₁).seq fun header fs₂ h₂=>h₂.trans h₁

lemma keeps_inodeReopen (inode:Option ℕ):Keeps handles (Filesys.inodeReopen inode):=by
 intro fs
 refine holds_bind.2 (holds_get.2 ?_)
 cases InodeTable.inodeReopen fs.inodes inode<;>trivial
lemma keeps_inodeRemove (p:ℕ):Keeps handles (Filesys.inodeRemove p):=by
 intro fs
 refine holds_bind.2 (holds_get.2 ?_)
 cases InodeTable.inodeRemove fs.inodes p<;>trivial

lemma keeps_inodeClose (inode:Option ℕ):Keeps handles (Filesys.inodeClose io inode):=by
 intro fs
 refine holds_bind.2 (holds_get.2 ?_)
 cases InodeTable.inodeClose fs.inodes inode with
 | none=>trivial
 | some r=>exact keeps_releaseAll r.1 _

lemma keeps_inodeAllowWrite (p:ℕ):Keeps handles (inodeAllowWrite p):=by
 refine keeps_bind (keeps_theInode p) fun inode=>?_
 split
 · exact fun _=>rfl
 · exact keeps_throw _

lemma handles_set (fs:Fs)(f:ℕ){g:File→File}(same:∀file,(g file).id=file.id):
 handles {fs with files:=KeyedList.set File.id f g fs.files}=handles fs:=
 Prod.ext (KeyedList.map_set same) rfl

lemma keeps_fileAllowWrite (f:ℕ):Keeps handles (fileAllowWrite f):=by
 refine keeps_bind (keeps_theFile f) fun file=>?_
 split
 · exact keeps_bind (fun fs=>handles_set fs f fun _=>rfl) fun _=>keeps_inodeAllowWrite _
 · exact keeps_pure _

variable {p:ℕ}{length:ℤ}{stack:DirEntry}

lemma keeps_dirOpenRoot:Keeps handles (dirOpenRoot io):=by
 refine keeps_bind (keeps_inodeOpen 1) fun inode=>keeps_bind (keeps_onDevice _) fun ok=>?_
 cases inode with
 | none=>exact keeps_bind (keeps_inodeClose _) fun _=>keeps_pure _
 | some p=>
  cases ok with
  | true=>exact keeps_pure _
  | false=>exact keeps_bind (keeps_inodeClose _) fun _=>keeps_pure _

lemma keeps_dirClose (dir:Option ℕ):Keeps handles (dirClose io dir):=by
 cases dir with
 | none=>exact keeps_pure _
 | some p=>exact keeps_inodeClose _

lemma keeps_dirLookup (name:CString):Keeps handles (dirLookup (dirFile io p length stack) name):=by
 refine keeps_bind (keeps_lookup name) fun found=>?_
 cases found with
 | none=>exact keeps_pure _
 | some r=>exact keeps_inodeOpen _

lemma keeps_eraseEntry (e:DirEntry)(ofs inode:ℕ):
 Keeps handles (eraseEntry (dirFile io p length stack) e ofs inode):=by
 refine keeps_bind (keeps_inodeWriteAt _ _ _ _) fun n=>?_
 split
 · exact keeps_bind (keeps_inodeRemove _) fun _=>keeps_pure _
 · exact keeps_pure _

lemma keeps_dirRemove (name:CString):Keeps handles (dirRemove (dirFile io p length stack) name):=by
 refine keeps_bind (keeps_lookup name) fun found=>?_
 cases found with
 | none=>exact keeps_bind (keeps_inodeClose _) fun _=>keeps_pure _
 | some r=>
  refine keeps_bind (keeps_inodeOpen _) fun inode=>?_
  cases inode with
  | none=>exact keeps_bind (keeps_inodeClose _) fun _=>keeps_pure _
  | some i=>
   exact keeps_bind (keeps_eraseEntry _ _ _) fun _=>keeps_bind (keeps_inodeClose _) fun _=>
    keeps_pure _

lemma keeps_createIn (dir:Option ℕ)(name:CString)(size:ℤ):
 Keeps handles (createIn io dir name size stack):=by
 cases dir with
 | none=>exact keeps_pure _
 | some p=>
  refine keeps_bind (keeps_freeMapAllocate 1) fun sector=>?_
  cases sector with
  | none=>exact keeps_pure _
  | some sector=>
   refine keeps_bind (keeps_inodeCreate _ _) fun ok=>?_
   cases ok with
   | false=>exact keeps_pure _
   | true=>
    exact keeps_bind (keeps_theInode p) fun _=>keeps_bind (keeps_dirAdd _ _) fun _=>
     keeps_pure _

lemma keeps_filesysCreate (name:CString)(size:ℤ):
 Keeps handles (Filesys.filesysCreate io name size stack):=by
 refine keeps_bind keeps_dirOpenRoot fun dir=>keeps_bind (keeps_createIn _ _ _) fun r=>?_
 have close:Keeps handles (do dirClose io dir;return r.1):=
  keeps_bind (keeps_dirClose dir) fun _=>keeps_pure _
 dsimp only
 split
 · exact keeps_bind (keeps_freeMapRelease _ _) fun _=>close
 · exact close

lemma keeps_filesysRemove (name:CString):Keeps handles (Filesys.filesysRemove io name stack):=by
 refine keeps_bind keeps_dirOpenRoot fun dir=>?_
 have close:∀ok:Bool,Keeps handles (do dirClose io dir;return ok):=fun _=>
  keeps_bind (keeps_dirClose dir) fun _=>keeps_pure _
 cases dir with
 | none=>exact close false
 | some p=>
  exact keeps_bind (keeps_theInode p) fun _=>
   keeps_bind (keeps_dirRemove name) fun ok=>close ok

end

def Opened (fs:Fs)(r:Option ℕ)(fs':Fs):Prop:=
 match r with
 | none=>handles fs'=handles fs
 | some f=>f=fs.nextFile ∧ handles fs'=(f::(handles fs).1,fs.nextFile+1)

section
variable {io: SectorIO}{stack:DirEntry}{fs fs':Fs}{r:Option ℕ}

lemma Opened.of_handles {fs₀:Fs}(h:Opened fs r fs')(same:handles fs=handles fs₀):
 Opened fs₀ r fs':=by
 have next:fs.nextFile=fs₀.nextFile:=congrArg Prod.snd same
 cases r with
 | none=>exact h.trans same
 | some f=>
  unfold Opened at h ⊢
  rw[←same,←next]
  exact h

lemma fileOpen_opened (inode:Option ℕ)(fs:Fs):
 Holds (Filesys.fileOpen io inode) fs (Opened fs) AnyFault:=by
 refine (keeps_onDevice (v:=handles) _ fs).seq fun ok fs₁ same=>?_
 cases inode with
 | none=>exact (keeps_inodeClose none fs₁).seq fun _ _ h=>h.trans same
 | some p=>
  cases ok with
  | false=>exact (keeps_inodeClose (some p) fs₁).seq fun _ _ h=>h.trans same
  | true=>
   have new:Opened fs₁ (some fs₁.nextFile) {fs₁ with
     files:=⟨fs₁.nextFile,p,0,false⟩::fs₁.files,nextFile:=fs₁.nextFile+1}:=
    ⟨rfl,rfl⟩
   exact new.of_handles same

lemma filesysOpen_opened (name:CString)(fs:Fs):
 Holds (Filesys.filesysOpen io name stack) fs (Opened fs) AnyFault:=by
 refine (keeps_dirOpenRoot fs).seq fun dir fs₁ h₁=>?_
 have rest:∀inode fs₂,handles fs₂=handles fs →
   Holds (do dirClose io dir;Filesys.fileOpen io inode) fs₂ (Opened fs) AnyFault:=
  fun inode fs₂ h₂=>(keeps_dirClose dir fs₂).seq fun _ fs₃ h₃=>
   (fileOpen_opened inode fs₃).imp fun _ _ h=>h.of_handles (h₃.trans h₂)
 cases dir with
 | none=>exact rest none fs₁ h₁
 | some p=>
  exact (keeps_theInode (v:=handles) p fs₁).seq fun root fs₂ h₂=>
   (keeps_dirLookup name fs₂).seq fun inode fs₃ h₃=>rest inode fs₃ (h₃.trans (h₂.trans h₁))

lemma openName_opened (name:Option CString)(fs:Fs):
 Holds (openName io name stack) fs (Opened fs) AnyFault:=by
 cases name with
 | some name=>exact filesysOpen_opened name fs
 | none=>
  refine (keeps_dirOpenRoot fs).seq fun dir fs₁ h₁=>?_
  cases dir with
  | some p=>trivial
  | none=>exact (fileOpen_opened none fs₁).imp fun _ _ h=>h.of_handles h₁

lemma fileReopen_opened (f:ℕ)(fs:Fs):Holds (Filesys.fileReopen io f) fs (Opened fs) AnyFault:=
 (keeps_theFile (v:=handles) f fs).seq fun _ fs₁ h₁=>
  (keeps_inodeReopen _ fs₁).seq fun inode fs₂ h₂=>
   (fileOpen_opened inode fs₂).imp fun _ _ h=>h.of_handles (h₂.trans h₁)

lemma fileClose_closed (f:ℕ)(fs:Fs):Holds (Filesys.fileClose io (some f)) fs
  (fun _ fs'=>handles fs'=((handles fs).1.erase f,fs.nextFile)) AnyFault:=by
 refine (keeps_fileAllowWrite f fs).seq fun _ fs₁ h₁=>(keeps_theFile (v:=handles) f fs₁).seq
  fun file fs₂ h₂=>(keeps_inodeClose _ fs₂).seq fun _ fs₃ h₃=>?_
 have same:handles fs₃=handles fs:=h₃.trans (h₂.trans h₁)
 have next:fs₃.nextFile=fs.nextFile:=congrArg Prod.snd same
 refine Prod.ext ?_ next
 rw[←same]
 change (fs₃.files.eraseP fun file=>file.id=f).map File.id=(fs₃.files.map File.id).erase f
 induction fs₃.files with
 | nil=>rfl
 | cons file rest ih=>
  by_cases hf:file.id=f
  · simp[hf]
  · simp[hf,ih]

end

/-- The open files have different numbers, none of which is given out again. -/
structure Fresh (fs:Fs):Prop where
 nodup:(handles fs).1.Nodup
 bound:∀f∈(handles fs).1,f<(handles fs).2

section
variable {io: SectorIO}{fs fs':Fs}{r:Option ℕ}{f:ℕ}

section
variable (h:Fresh fs)
include h

lemma Fresh.of_handles (same:handles fs'=handles fs):Fresh fs':=
 ⟨by rw[same];exact h.nodup,by rw[same];exact h.bound⟩

lemma Fresh.opened (opened:Opened fs r fs'):Fresh fs':=by
 cases r with
 | none=>exact h.of_handles opened
 | some f=>
  obtain ⟨rfl,same⟩:=opened
  constructor
  · rw[same]
    exact nodup_cons.2 ⟨fun hn=>absurd (h.bound _ hn) (Nat.lt_irrefl _),h.nodup⟩
  · rw[same]
    intro g hg
    rcases mem_cons.1 hg with rfl|hg
    · exact Nat.lt_succ_self _
    · exact Nat.lt_succ_of_lt (h.bound g hg)

lemma Fresh.closed (closed:handles fs'=((handles fs).1.erase f,fs.nextFile)):Fresh fs':=by
 constructor
 · rw[closed]
   exact h.nodup.erase f
 · rw[closed]
   exact fun g hg=>h.bound g (mem_of_mem_erase hg)

lemma openFreeMapFile_fresh:Holds (openFreeMapFile io) fs (fun _ fs'=>Fresh fs') AnyFault:=by
 refine (keeps_inodeOpen 0 fs).seq fun inode fs₁ h₁=>(fileOpen_opened inode fs₁).seq
  fun file fs₂ h₂=>?_
 have fresh:Fresh {fs₂ with freeMapFile:=file}:=((h.of_handles h₁).opened h₂).of_handles rfl
 cases file with
 | none=>trivial
 | some f=>exact fresh

lemma freeMapInit_fresh:Holds freeMapInit fs (fun _ fs'=>Fresh fs') AnyFault:=by
 unfold freeMapInit
 rw[holds_bind,holds_get]
 refine (keeps_onDevice (v:=handles) _ fs).seq fun ok fs₁ h₁=>
  (keeps_onDevice (v:=handles) _ fs₁).seq fun ok' fs₂ h₂=>?_
 split
 · split
   · exact h.of_handles (h₂.trans h₁)
   · trivial
 · trivial

lemma doFormat_fresh:Holds (doFormat io) fs (fun _ fs'=>Fresh fs') AnyFault:=by
 have create:Holds (freeMapCreate io) fs (fun _ fs'=>Fresh fs') AnyFault:=by
  refine holds_bind.2 (holds_get.2 ((keeps_inodeCreate (v:=handles) _ _ fs).seq
   fun ok fs₁ h₁=>?_))
  cases ok with
  | false=>trivial
  | true=>
   refine (openFreeMapFile_fresh (h.of_handles h₁)).seq fun f fs₂ h₂=>
    (keeps_bitmapWrite (v:=handles) f fs₂).seq fun ok fs₃ h₃=>?_
   cases ok with
   | false=>trivial
   | true=>exact h₂.of_handles h₃
 refine create.seq fun _ fs₁ h₁=>(keeps_inodeCreate (v:=handles) _ _ fs₁).seq
  fun ok fs₂ h₂=>?_
 cases ok with
 | false=>trivial
 | true=>
  change Holds (Filesys.fileClose io fs₂.freeMapFile) fs₂ _ _
  cases fs₂.freeMapFile with
  | none=>exact h₁.of_handles h₂
  | some f=>exact (fileClose_closed f fs₂).imp fun _ _ h₃=>(h₁.of_handles h₂).closed h₃

lemma freeMapOpen_fresh:Holds (freeMapOpen io) fs (fun _ fs'=>Fresh fs') AnyFault:=by
 refine (openFreeMapFile_fresh h).seq fun f fs₁ h₁=>?_
 have read:Keeps handles (bitmapRead io f):=keeps_bind keeps_get fun s=>
  keeps_bind (keeps_bind (keeps_theFile f) fun _=>keeps_inodeReadAt _ _ _) fun bytes=>
   keeps_bind (fun _=>rfl) fun _=>keeps_pure _
 refine (read fs₁).seq fun ok fs₂ h₂=>?_
 cases ok with
 | false=>trivial
 | true=>exact h₁.of_handles h₂

end

lemma filesysInit_fresh (format:Bool)(dev:Device):
 Holds (filesysInit io format) (boot dev) (fun _ fs=>Fresh fs) AnyFault:=by
 have start:Fresh {boot dev with inodes:=⟨[],0⟩}:=⟨nodup_nil,nofun⟩
 unfold filesysInit
 rw[holds_bind,holds_modify]
 refine (freeMapInit_fresh start).seq fun _ fs₁ h₁=>?_
 cases format with
 | false=>exact freeMapOpen_fresh h₁
 | true=>exact (doFormat_fresh h₁).seq fun _ fs₂ h₂=>freeMapOpen_fresh h₂

end

lemma call_fresh {io: SectorIO}{fs:Fs}(h:Fresh fs)(c:Filesys.Call):
 Holds (c.run io) fs (fun _ fs'=>Fresh fs' ∧ ∀f∈(handles fs).1,(∀g,c=.fileClose g →
  f≠g) → f∈(handles fs').1) AnyFault:=by
 have kept:∀ {α:Type} {m:FsCmd α},Keeps handles m → Holds m fs (fun _ fs'=>Fresh fs' ∧
   ∀f∈(handles fs).1,(∀g,c=.fileClose g → f≠g) → f∈(handles fs').1) AnyFault:=
  fun keeps=>(keeps fs).imp fun _ fs' same=>⟨h.of_handles same,fun f hf _=>same▸hf⟩
 have opening:∀ {m:FsCmd (Option ℕ)},Holds m fs (Opened fs) AnyFault →
   Holds (do let _←m;return false) fs (fun _ fs'=>Fresh fs' ∧
    ∀f∈(handles fs).1,(∀g,c=.fileClose g → f≠g) → f∈(handles fs').1) AnyFault:=by
  refine fun opens=>opens.seq fun r fs' opened=>⟨h.opened opened,fun f hf _=>?_⟩
  cases r with
  | none=>exact opened▸hf
  | some g=>exact opened.2▸mem_cons_of_mem _ hf
 cases c with
 | filesysCreate name size stack=>exact kept (keeps_filesysCreate name size)
 | filesysRemove name stack=>exact kept (keeps_filesysRemove name)
 | filesysOpen name stack=>exact opening (filesysOpen_opened name fs)
 | fileReopen f=>exact opening (fileReopen_opened f fs)
 | fileClose f=>
  refine (fileClose_closed f fs).seq fun _ fs' closed=>⟨h.closed closed,fun g hg other=>?_⟩
  rw[closed]
  exact (mem_erase_of_ne (other f rfl)).2 hg
 | fileReadAt f size offset=>
  exact kept (keeps_bind (keeps_bind (keeps_theFile f) fun _=>keeps_inodeReadAt _ _ _)
   fun _=>keeps_pure _)
 | fileWriteAt f buffer size offset=>
  exact kept (keeps_bind (keeps_bind (keeps_theFile f) fun _=>keeps_inodeWriteAt _ _ _ _)
   fun _=>keeps_pure _)

end Pintos.FileCalls
