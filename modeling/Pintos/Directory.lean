import Pintos.ByteWords
import Pintos.Cache

/-!
# Directories

The functions of `filesys/directory.c` over an arbitrary backing file, given by
the operations of `inode.c` that they call.
-/
namespace Pintos.Directory
open ExecHoare ByteWords Cache

/-- The bytes of a string before its terminator. -/
abbrev CString:={ l:List UInt8 // 0∉l}

/-- `struct dir_entry`: the sector in bytes 0 to 3, the name in bytes 4 to 18,
`in_use` in byte 19. -/
abbrev DirEntry:=Fin 20 → UInt8

def nameMax:ℕ:=14

namespace DirEntry

def inodeSector (e:DirEntry):ℕ:=word (e 0) (e 1) (e 2) (e 3)
def inUse (e:DirEntry):Bool:=e 19 != 0
def nameBytes (e:DirEntry):List UInt8:=List.ofFn (fun i:Fin 16=>e (i.natAdd 4))
def nameIs (e:DirEntry)(name:CString):Bool:=(name.val++[0]).isPrefixOf e.nameBytes
def copyName (e:DirEntry):List UInt8:=(e.nameBytes.takeWhile (· != 0)).take nameMax

/-- The three stores of `dir_add`; `strlcpy` leaves what is behind the terminator. -/
def fill (e:DirEntry)(name:CString)(sector:ℕ):DirEntry:=fun i=>
 let len:=min name.val.length nameMax
 if i.val<4 then wordByte sector i.val
 else if i.val=19 then 1
 else if i.val<4+len then name.val.getD (i.val-4) 0
 else if i.val=4+len then 0
 else e i

def clear (e:DirEntry):DirEntry:=fun i=>if i.val=19 then 0 else e i

end DirEntry

/-- The backing file of a directory. `readAt` and `writeAt` move `sizeof e`
bytes and return how many they moved; `stack` is what an uninitialised local
entry holds, and `turns` bounds the turns of a scan. -/
structure DirFile (σ:Type) where
 readAt:DirEntry→ℕ→Exec Fault σ (ℕ×DirEntry)
 writeAt:DirEntry→ℕ→Exec Fault σ ℕ
 inodeOpen:ℕ→Exec Fault σ (Option ℕ)
 inodeRemove:ℕ→Exec Fault σ Unit
 inodeClose:Option ℕ→Exec Fault σ Unit
 stack:DirEntry
 turns:ℕ
variable {σ:Type}(io:DirFile σ)

/-- A scan from `ofs` on for the first entry that `stop` accepts. It ends with
what was read last, the offset, and whether an entry was accepted. -/
def scan (stop:DirEntry→Bool):ℕ→DirEntry→ℕ→Exec Fault σ (DirEntry×ℕ×Bool)
 | 0,_,_=>throw .endless
 | turns+1,e,ofs=>do
  let (n,e)←io.readAt e ofs
  if n=20 then
   if stop e then return (e,ofs,true) else scan stop turns e (ofs+20)
  else return (e,ofs,false)

def lookup (name:CString):Exec Fault σ (Option (DirEntry×ℕ)):=do
 let (e,ofs,found)←scan io (fun e=>e.inUse && e.nameIs name) io.turns io.stack 0
 return if found then some (e,ofs) else none
def dirLookup (name:CString):Exec Fault σ (Option ℕ):=do
 match←lookup io name with
 | some (e,_)=>io.inodeOpen e.inodeSector
 | none=>return none

def dirAdd (name:CString)(inodeSector:ℕ):Exec Fault σ Bool:=
 if name.val=[] ∨ nameMax<name.val.length then return false
 else do
  match←lookup io name with
  | some _=>return false
  | none=>
   let (e,ofs,_)←scan io (fun e=>!e.inUse) io.turns io.stack 0
   let n←io.writeAt (e.fill name inodeSector) ofs
   return n=20

def eraseEntry (e:DirEntry)(ofs inode:ℕ):Exec Fault σ Bool:=do
 let n←io.writeAt e.clear ofs
 if n=20 then
  io.inodeRemove inode
  return true
 else return false

def dirRemove (name:CString):Exec Fault σ Bool:=do
 match←lookup io name with
 | none=>
  io.inodeClose none
  return false
 | some (e,ofs)=>
  match←io.inodeOpen e.inodeSector with
  | none=>
   io.inodeClose none
   return false
  | some inode=>
   let success←eraseEntry io e ofs inode
   io.inodeClose (some inode)
   return success

/-- The next name from `pos` on, and the position after it. -/
def dirReaddir (pos:ℕ):Exec Fault σ (Option (List UInt8)×ℕ):=do
 let (e,ofs,found)←scan io (·.inUse) io.turns io.stack pos
 return if found then (some e.copyName,ofs+20) else (none,ofs)

end Pintos.Directory
