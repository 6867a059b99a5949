import Pintos.FilesysFiles

namespace Pintos.Filesys
open ExecHoare ExecRuns Bitmap Cache Directory InodeTable InodeData

inductive Call where
 | filesysCreate (name:CString) (size:ℤ) (stack:DirEntry)
 | filesysOpen (name:CString) (stack:DirEntry)
 | filesysRemove (name:CString) (stack:DirEntry)
 | fileReopen (f:ℕ)
 | fileClose (f:ℕ)
 | fileReadAt (f:ℕ) (size:ℤ) (offset:ℕ)
 | fileWriteAt (f:ℕ) (buffer:ℕ→UInt8) (size:ℤ) (offset:ℕ)

def Call.run (io: SectorIO):Call→FsCmd Bool
 | .filesysCreate name size stack=>Filesys.filesysCreate io name size stack
 | .filesysOpen name stack=>do
  let _←Filesys.filesysOpen io name stack
  return false
 | .filesysRemove name stack=>Filesys.filesysRemove io name stack
 | .fileReopen f=>do
  let _←Filesys.fileReopen io f
  return false
 | .fileClose f=>do
  Filesys.fileClose io (some f)
  return false
 | .fileReadAt f size offset=>do
  let _←Filesys.fileReadAt io f size offset
  return false
 | .fileWriteAt f buffer size offset=>do
  let _←Filesys.fileWriteAt io f buffer size offset
  return false

/-- Handles are live ones, and the size of a file is at most `INT_MAX - 511`. -/
def Call.Allowed (fs:Fs):Call→Prop
 | .filesysCreate _ size _=>0 ≤ size ∧ size≤2^31-1-511
 | .filesysOpen _ _ | .filesysRemove _ _=>True
 | .fileReopen f | .fileClose f | .fileReadAt f _ _ | .fileWriteAt f _ _ _=>LiveHandle fs f

instance (fs:Fs)(f:ℕ):Decidable (LiveHandle fs f):=by
 unfold LiveHandle
 infer_instance
instance (fs:Fs)(c:Call):Decidable (c.Allowed fs):=by
 cases c<;>unfold Call.Allowed<;>infer_instance

/-- What a call needs of the state: a new header's sector has no dirty block, and
a name leads to one of the `files`. -/
def Call.Sound (M:Medium)(content:Sector)(files:List Entry)(fs:Fs):Call→Prop
 | .filesysCreate _ size _=>∀e,planned fs.freeMap size=some e → NotDirty (M.cell fs.dev e.1)
 | .filesysOpen name _ | .filesysRemove name _=>Known content name files
 | _=>True

def Call.files (fs:Fs)(dir:List DirEntry)(named:List Entry):Call→Bool→List Entry
 | .filesysCreate _ size _,true=>(planned fs.freeMap size).toList++named
 | .filesysRemove name _,true=>
  named.filter (fun e=>(dir.find? (Names name)).map (·.inodeSector)≠some e.1)
 | _,_=>named

/-- What a call makes of the content of the root directory. -/
def Call.Turns (M:Medium)(fs:Fs)(content content':Sector):Call→Bool→Prop
 | .filesysCreate name size _,true=>
  ∃e,planned fs.freeMap size=some e ∧ Added M content content' name e.1
 | .filesysRemove name _,true=>∃sector,Cleared M content content' name sector
 | _,_=>content'=content
variable {M:Medium}{L:Layout}{content:Sector}{X:ℕ→Cell→Prop}{named:List Entry}{fs:Fs}

lemma Cleared.filter {content':Sector}{name:CString}{sector:ℕ}
 (h:Cleared M content content' name sector):
 named.filter (fun e=>((rootSlots content).find? (Names name)).map (·.inodeSector)≠some e.1)
  = named.filter (fun e=>e.1≠sector):=by
 obtain ⟨j,x,-,first,rfl,-⟩:=h
 apply List.filter_congr
 intro e _
 rw[first,Option.map_some,decide_eq_decide,ne_eq,ne_eq,Option.some.injEq,eq_comm]

lemma call_mounted (h:Mounted M L content X named fs)(plain:Plain M X)(c:Call)
 (allowed:c.Allowed fs)(sound:c.Sound M content (named++condemned fs.inodes) fs):
 Holds (c.run M.toSectorIO) fs (fun ok fs'=>∃content',c.Turns M fs content content' ok ∧
  Mounted M L content' X (c.files fs (rootSlots content) named ok) fs') M.E:=by
 cases c with
 | filesysCreate name size stack=>
  have hl:size<2^31:=by
   have:=allowed.2
   omega
  refine (filesysCreate_mounted h plain allowed.1 hl sound).imp ?_
  rintro ok fs' (⟨rfl,-,h'⟩|⟨rfl,e,content',plan,added,h',-⟩)
  · exact ⟨content,rfl,h'⟩
  · refine ⟨content',⟨e,plan,added⟩,?_⟩
    change Mounted M L content' X ((planned fs.freeMap size).toList++named) fs'
    rw[plan]
    exact h'
 | filesysRemove name stack=>
  refine (filesysRemove_mounted h (plain.quiet L) sound).imp ?_
  rintro ok fs' (⟨rfl,h'⟩|⟨rfl,content',sector,cleared,h'⟩)
  · exact ⟨content,rfl,h'⟩
  · refine ⟨content',⟨sector,cleared⟩,?_⟩
    rw[Call.files,cleared.filter]
    exact h'
 | filesysOpen name stack=>
  exact (filesysOpen_mounted h (plain.quiet L) sound).seq fun _ fs' h'=>⟨content,rfl,h'⟩
 | fileReopen f=>
  exact (fileReopen_mounted h (plain.quiet L) allowed).seq fun _ fs' h'=>⟨content,rfl,h'⟩
 | fileClose f=>
  exact (fileClose_mounted h (plain.quiet L) allowed).seq fun _ fs' h'=>⟨content,rfl,h'⟩
 | fileReadAt f size offset=>
  exact (fileReadAt_mounted h allowed size offset).seq fun _ fs' h'=>⟨content,rfl,h'.1⟩
 | fileWriteAt f buffer size offset=>
  exact (fileWriteAt_mounted h plain allowed buffer size offset).seq
   fun _ fs' h'=>⟨content,rfl,h'.1⟩

end Pintos.Filesys
