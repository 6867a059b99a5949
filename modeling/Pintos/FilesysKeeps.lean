import Pintos.FilesysSpec

namespace Pintos.Filesys
open ExecHoare Bitmap Cache Directory InodeTable InodeData

/-- A view of the file system that does not show the device. -/
class DeviceBlind {β:Type} (v:Fs→β):Prop where
 device:∀fs d,v {fs with dev:=d}=v fs

/-- A view that does not show the bits of the free map either. -/
class Blind {β:Type} (v:Fs→β):Prop extends DeviceBlind v where
 bits:∀fs b,v {fs with freeMap:=b}=v fs

def tables (fs:Fs):Table×List File×ℕ:=(fs.inodes,fs.files,fs.nextFile)
instance:Blind tables where
 device _ _:=rfl
 bits _ _:=rfl
instance:DeviceBlind Fs.freeMap where
 device _ _:=rfl

section
variable {β:Type}{v:Fs→β}{io: SectorIO}{α:Type}

lemma keeps_orFault {fault:Fault}(o:Option α):Keeps v (orFault fault o):=by
 cases o with
 | none=>exact keeps_throw _
 | some a=>exact keeps_pure _
lemma keeps_theInode (p:ℕ):Keeps v (theInode p):=keeps_bind keeps_get fun _=>keeps_orFault _
lemma keeps_theFile (f:ℕ):Keeps v (theFile f):=keeps_bind keeps_get fun _=>keeps_orFault _

variable [DeviceBlind v]

lemma keeps_onDevice (m:Cmd α):Keeps v (onDevice m):=by
 intro fs
 exact holds_onDevice.2 ((holds_trivial m fs.dev).imp fun _ d _=>DeviceBlind.device fs d)
lemma keeps_inodeReadAt (p:ℕ)(size:ℤ)(offset:ℕ):Keeps v (inodeReadAt io p size offset):=
 keeps_bind (keeps_theInode p) fun _=>keeps_onDevice _

lemma keeps_inodeWriteAt (p:ℕ)(buffer:ℕ→UInt8)(size:ℤ)(offset:ℕ):
 Keeps v (inodeWriteAt io p buffer size offset):=by
 refine keeps_bind (keeps_theInode p) fun inode=>?_
 split
 · exact keeps_pure _
 · exact keeps_onDevice _

lemma keeps_bitmapWrite (f:ℕ):Keeps v (bitmapWrite io f):=
 keeps_bind keeps_get fun _=>keeps_bind
  (keeps_bind (keeps_theFile f) fun _=>keeps_inodeWriteAt _ _ _ _) fun _=>keeps_pure _

variable {p:ℕ}{length:ℤ}{stack:DirEntry}

lemma keeps_scan (stop:DirEntry→Bool)(turns:ℕ)(e:DirEntry)(ofs:ℕ):
 Keeps v (scan (dirFile io p length stack) stop turns e ofs):=by
 induction turns generalizing e ofs with
 | zero=>exact keeps_throw _
 | succ turns ih=>
  refine keeps_bind (keeps_bind (keeps_inodeReadAt _ _ _) fun _=>keeps_pure _) fun (n,e)=>?_
  dsimp only
  split
  · split
    · exact keeps_pure _
    · exact ih _ _
  · exact keeps_pure _

lemma keeps_lookup (name:CString):Keeps v (Directory.lookup (dirFile io p length stack) name):=
 keeps_bind (keeps_scan _ _ _ _) fun _=>keeps_pure _

lemma keeps_dirAdd (name:CString)(sector:ℕ):
 Keeps v (dirAdd (dirFile io p length stack) name sector):=by
 unfold dirAdd
 split
 · exact keeps_pure _
 refine keeps_bind (keeps_lookup name) fun found=>?_
 cases found with
 | some r=>exact keeps_pure _
 | none=>
  exact keeps_bind (keeps_scan _ _ _ _) fun _=>keeps_bind (keeps_inodeWriteAt _ _ _ _) fun _=>
   keeps_pure _

end
variable {β:Type}{v:Fs→β}[Blind v]{io: SectorIO}

lemma keeps_setBits (start cnt:ℕ)(value:Bool):Keeps v (setBits start cnt value):=by
 intro fs
 refine holds_bind.2 (holds_get.2 ?_)
 cases bitmapSetMultiple fs.freeMap start cnt value with
 | none=>trivial
 | some b=>exact Blind.bits fs b

lemma keeps_freeMapAllocate (cnt:ℕ):Keeps v (freeMapAllocate io cnt):=by
 refine keeps_bind keeps_get fun s=>?_
 cases bitmapScan s.freeMap cnt with
 | none=>exact keeps_pure _
 | some sector=>
  refine keeps_bind (keeps_setBits _ _ _) fun _=>?_
  cases s.freeMapFile with
  | none=>exact keeps_pure _
  | some f=>
   refine keeps_bind (keeps_bitmapWrite f) fun ok=>?_
   cases ok with
   | true=>exact keeps_pure _
   | false=>exact keeps_bind (keeps_setBits _ _ _) fun _=>keeps_pure _

lemma keeps_freeMapRelease (sector cnt:ℕ):Keeps v (freeMapRelease io sector cnt):=by
 refine keeps_bind keeps_get fun s=>keeps_bind (keeps_orFault _) fun all=>?_
 cases all with
 | true=>
  exact keeps_bind (keeps_setBits _ _ _) fun _=>keeps_bind (keeps_orFault _) fun f=>
   keeps_bind (keeps_bitmapWrite f) fun _=>keeps_pure _
 | false=>exact keeps_throw _

lemma keeps_inodeCreate (sector:ℕ)(length:ℤ):Keeps v (inodeCreate io sector length):=by
 unfold inodeCreate
 split
 · exact keeps_throw _
 refine keeps_bind (keeps_onDevice _) fun ok=>?_
 cases ok with
 | false=>exact keeps_pure _
 | true=>
  refine keeps_bind (keeps_freeMapAllocate _) fun start=>?_
  cases start with
  | none=>exact keeps_pure _
  | some start=>
   exact keeps_bind (keeps_onDevice _) fun _=>keeps_bind (keeps_onDevice _) fun _=>
    keeps_pure _

lemma keeps_releaseAll (ranges:List (ℕ×ℕ)):Keeps v (releaseAll io ranges):=by
 induction ranges with
 | nil=>exact keeps_pure _
 | cons r rest ih=>exact keeps_bind (keeps_freeMapRelease _ _) fun _=>ih

end Pintos.Filesys
