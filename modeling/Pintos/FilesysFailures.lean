import Pintos.FilesysRecycling

/-! What a `filesys_create` that fails leaves behind. -/
namespace Pintos.Filesys
open ExecHoare ExecRuns Bitmap Cache Directory InodeTable InodeData List Option

section
variable (M:Medium)

/-- The header of the root directory on disk, and what the directory reads as. -/
def rootDirectory (fs:Fs):Entry×Sector:=
 (headerAt fs 1,(M.cell fs.dev (headerAt fs 1).2.start).logical)
def Untouched (fs fs':Fs):Prop:=
 fs'.freeMap=fs.freeMap ∧ rootDirectory M fs'=rootDirectory M fs

end
variable {M:Medium}{L:Layout}{content:Sector}{X:ℕ→Cell→Prop}{named:List Entry}
 {fs:Fs}{name:CString}{size:ℤ}{stack:DirEntry}

lemma Mounted.rootDirectory (h:Mounted M L content X named fs):
 Filesys.rootDirectory M fs=((1,L.root),content):=by
 have header:headerAt fs 1=(1,L.root):=h.header (e:=(1,L.root)) (by simp[Layout.system])
 obtain ⟨hs,-,core⟩:=h
 rw[Filesys.rootDirectory,header]
 exact Prod.ext rfl ((core.meets.2 L.root.start).1.2 rfl).2

lemma Mounted.untouched (h:Mounted M L content X named fs)(plain:Plain M X)(hl:0 ≤ size)
 (hl':size<2^31)(clean:∀e,planned fs.freeMap size=some e → NotDirty (M.cell fs.dev e.1))
 (harmless:Harmless (Filesys.rootDirectory M fs).2 name size fs):
 Holds (filesysCreate M.toSectorIO name size stack) fs
  (fun ok fs'=>ok=false → Untouched M fs fs') M.E:=by
 rw[h.rootDirectory] at harmless
 refine (filesysCreate_mounted h plain hl hl' clean).imp ?_
 rintro ok fs' (⟨rfl,bits,h'⟩|⟨rfl,-⟩) failed
 · exact ⟨bits harmless,h'.rootDirectory.trans h.rootDirectory.symm⟩
 · cases failed

end Pintos.Filesys
