import Pintos.KernelLists
import Pintos.Palloc

/-!
# Blocks of memory

`threads/malloc.c`. Memory is what the code keeps in it: the header at an address and the links of
the list element at an address. A header takes 12 bytes and a list element 8, and whoever writes
bytes to an area may change every header and every element that the area touches. A failed
assertion, or a pointer followed to nowhere, ends a call with `none`.
-/
namespace Pintos.Malloc
open LinkedHeap KernelLists ExecRuns
open Palloc (pgSize Area Apart)

def arenaMagic:ℕ:=0x9a548eed

/-- `sizeof (struct arena)`. -/
def arenaSize:ℕ:=12

/-- `sizeof (struct block)`. -/
def elemSize:ℕ:=8

structure Desc where
 blockSize:ℕ
 blocksPerArena:ℕ
 deriving DecidableEq,Repr

/-- `desc` is an index into `descs`, or `none` for a big block. -/
structure Arena where
 magic:ℕ
 desc:Option ℕ
 freeCnt:ℕ
 deriving DecidableEq,Repr

/-- The list element at the start of a block, or an end of the free list of a descriptor. -/
inductive Cell where
 | block (b:ℕ)
 | head (d:ℕ)
 | tail (d:ℕ)
 deriving DecidableEq,Repr

/-- `list_entry`; the ends of a list are in no block. -/
def Cell.entry:Cell→Option ℕ
 | .block b=>some b
 | _=>none

def freeList (d:ℕ):Ends Cell:=⟨.head d,.tail d⟩

structure Memory where
 links:Heap Cell
 arena:ℕ→Arena

instance (a b:Area):Decidable (Apart a b):=inferInstanceAs (Decidable (_ ∨ _))
def Cell.Clear (area:Area):Cell→Prop
 | .block b=>Apart (b,elemSize) area
 | _=>True
instance (area:Area):(c:Cell) → Decidable (c.Clear area)
 | .block b=>inferInstanceAs (Decidable (Apart (b,elemSize) area))
 | .head _ | .tail _=>.isTrue trivial

/-- Memory after bytes have been written to an area: what the area touches is as in `junk`. -/
def Memory.overwrite (m junk:Memory)(area:Area):Memory where
 links:=
  {prev:=fun c=>if c.Clear area then m.links.prev c else junk.links.prev c
   next:=fun c=>if c.Clear area then m.links.next c else junk.links.next c}
 arena a:=if Apart (a,arenaSize) area then m.arena a else junk.arena a

def Memory.setArena (m:Memory)(a:ℕ)(h:Arena):Memory:={m with arena:=Function.update m.arena a h}
def Memory.setFreeCnt (m:Memory)(a cnt:ℕ):Memory:=m.setArena a {m.arena a with freeCnt:=cnt}

/-- The loop of `malloc_init` from a block size on, for at most `turns` turns. -/
def initFrom:ℕ→ℕ→List Desc→Heap Cell→Option (List Desc×Heap Cell)
 | 0,_,_,_=>none
 | turns+1,blockSize,descs,links=>
  if blockSize<pgSize/2 then do
   guard (descs.length+1≤10)
   let d:=⟨blockSize,(pgSize-arenaSize)/blockSize⟩
   initFrom turns (blockSize*2) (descs++[d]) (listInit links (freeList descs.length))
  else
   return (descs,links)

def mallocInit (turns:ℕ)(links:Heap Cell):Option (List Desc×Heap Cell):=initFrom turns 16 [] links

structure Pages where
 start:ℕ
 cnt:ℕ
 deriving DecidableEq,Repr

def Pages.area (r:Pages):Area:=(r.start,r.cnt*pgSize)

/-- Memory and the pages that have been taken from the page allocator and not been given back. -/
structure Store where
 mem:Memory
 pages:List Pages

/-- What the page allocator answers to a request for a number of pages, and what is in the pages. -/
structure Supply where
 palloc:ℕ→Option ℕ
 junk:Memory

def Store.take (s:Store)(a cnt:ℕ)(junk:Memory):Store:=
 ⟨s.mem.overwrite junk (a,cnt*pgSize),⟨a,cnt⟩::s.pages⟩
def Store.filled (s s':Store)(junk:Memory):Memory:=
 (s'.pages.filter (· ∉ s.pages)).foldl (fun m r=>m.overwrite junk r.area) s.mem
def pallocFree (s:Store)(a cnt:ℕ):Option Store:=do
 guard (⟨a,cnt⟩∈s.pages)
 return {s with pages:=s.pages.filter (· ≠ ⟨a,cnt⟩)}
def addWord (x y:ℕ):ℕ:=(x+y)%4294967296
def subWord (x y:ℕ):ℕ:=(x+(4294967296-y))%4294967296
def pgOfs (b:ℕ):ℕ:=b%pgSize
def pgRoundDown (b:ℕ):ℕ:=b/pgSize*pgSize

section

variable (descs:List Desc)

def blockToArena (m:Memory)(b:ℕ):Option ℕ:=do
 let a:=pgRoundDown b
 guard (a≠0)
 guard ((m.arena a).magic=arenaMagic)
 match (m.arena a).desc with
 | none=>guard (pgOfs b=arenaSize)
 | some i=>do
   let d←descs[i]?
   guard (subWord (pgOfs b) arenaSize%d.blockSize=0)
 return a

def arenaToBlock (m:Memory)(a idx:ℕ):Option ℕ:=do
 guard (a≠0)
 guard ((m.arena a).magic=arenaMagic)
 let i←(m.arena a).desc
 let d←descs[i]?
 guard (idx<d.blocksPerArena)
 return a+arenaSize+idx*d.blockSize

/-- `block_size`. -/
def sizeOfBlock (m:Memory)(b:ℕ):Option ℕ:=do
 let a←blockToArena descs m b
 match (m.arena a).desc with
 | some i=>do
   let d←descs[i]?
   return d.blockSize
 | none=>return pgSize*(m.arena a).freeCnt-pgOfs b

def pushBlock (i a:ℕ)(m:Memory)(idx:ℕ):Option Memory:=do
 let b←arenaToBlock descs m a idx
 let links←listPushBack m.links (freeList i) (.block b)
 return {m with links}

/-- The part of `malloc` for an empty free list; the answer is `none` if there is no page. -/
def newArena (supply:Supply)(s:Store)(i:ℕ):Option (Option Store):=
 match supply.palloc 1 with
 | none=>some none
 | some a=>do
   let d←descs[i]?
   let s:=s.take a 1 supply.junk
   let mem:=s.mem.setArena a ⟨arenaMagic,some i,d.blocksPerArena⟩
   let mem←(List.range d.blocksPerArena).foldlM (pushBlock descs i a) mem
   return some {s with mem}

/-- The last part of `malloc`: a block from the free list. -/
def takeBlock (s:Store)(i:ℕ):Option (ℕ×Store):=do
 let (c,links)←listPopFront s.mem.links (freeList i)
 let b←c.entry
 let mem:={s.mem with links}
 let a←blockToArena descs mem b
 return (b,{s with mem:=mem.setFreeCnt a (subWord (mem.arena a).freeCnt 1)})

def bigPageCnt (size:ℕ):ℕ:=addWord (addWord size arenaSize) (pgSize-1)/pgSize

/-- The answer 0 is the null pointer. -/
def malloc (supply:Supply)(s:Store)(size:ℕ):Option (ℕ×Store):=
 if size=0 then some (0,s)
 else
  match descs.findIdx? (fun d=>size≤d.blockSize) with
  | none=>
   match supply.palloc (bigPageCnt size) with
   | none=>some (0,s)
   | some a=>
    let s:=s.take a (bigPageCnt size) supply.junk
    some (a+arenaSize,{s with mem:=s.mem.setArena a ⟨arenaMagic,none,bigPageCnt size⟩})
  | some i=>
   if listEmpty s.mem.links (freeList i) then
    match newArena descs supply s i with
    | none=>none
    | some none=>some (0,s)
    | some (some s)=>takeBlock descs s i
   else takeBlock descs s i

def removeBlock (a:ℕ)(m:Memory)(idx:ℕ):Option Memory:=do
 let b←arenaToBlock descs m a idx
 let (_,links)←listRemove m.links (.block b)
 return {m with links}

/-- The part of `free` for a block of an arena; `junk` is what `memset` leaves in the block. -/
def freeBlock (junk:Memory)(s:Store)(p a i:ℕ):Option Store:=do
 let d←descs[i]?
 let mem:=s.mem.overwrite junk (p,d.blockSize)
 let links←listPushFront mem.links (freeList i) (.block p)
 let cnt:=addWord (mem.arena a).freeCnt 1
 let mem:={mem with links}.setFreeCnt a cnt
 if d.blocksPerArena≤cnt then do
  guard (cnt=d.blocksPerArena)
  let mem←(List.range d.blocksPerArena).foldlM (removeBlock descs a) mem
  pallocFree {s with mem} a 1
 else
  return {s with mem}

def free (junk:Memory)(s:Store)(p:ℕ):Option Store:=
 if p=0 then some s
 else do
  let a←blockToArena descs s.mem p
  match (s.mem.arena a).desc with
  | some i=>freeBlock descs junk s p a i
  | none=>pallocFree s a (s.mem.arena a).freeCnt

def clearedArea (m:Memory)(p:ℕ):Option Area:=do
 let a←blockToArena descs m p
 let i←(m.arena a).desc
 let d←descs[i]?
 return (p,d.blockSize)

def cleared (junk m:Memory)(p:ℕ):Memory:=
 match clearedArea descs m p with
 | none=>m
 | some area=>m.overwrite junk area

end

/-- A block that `malloc` has returned for a request of `asked` bytes. -/
structure Block where
 addr:ℕ
 size:ℕ
 asked:ℕ
 deriving DecidableEq,Repr

def Block.area (b:Block):Area:=(b.addr,b.size)

structure State where
 store:Store
 live:List Block

inductive Act where
 | malloc (size:ℕ) (supply:Supply)
 | free (p:ℕ) (junk:Memory)
 | write (b:Block) (junk:Memory)
variable (descs:List Desc)

def next (s:State):Act→Option State
 | .malloc size supply=>do
   let (b,store)←malloc descs supply s.store size
   if b=0 then
    return {s with store}
   let n←sizeOfBlock descs store.mem b
   return ⟨store,⟨b,n,size⟩::s.live⟩
 | .free p junk=>do
   let store←free descs junk s.store p
   return ⟨store,s.live.filter (·.addr≠p)⟩
 | .write b junk=>
  some ⟨{s.store with mem:=s.store.mem.overwrite junk b.area},s.live⟩

structure Offered (s:State)(a cnt:ℕ):Prop where
 whole:a%pgSize=0
 notNull:0<a
 bound:a+cnt*pgSize≤4294967296
 apart:∀r∈s.store.pages,Apart (a,cnt*pgSize) r.area

/-- The page allocator hands out pages of no one or fails, only what is live is freed, and only
what is live is written to. -/
def Allowed (s:State):Act→Prop
 | .malloc size supply=>size+arenaSize+pgSize<4294967296 ∧
   ∀cnt a,supply.palloc cnt=some a → Offered s a cnt
 | .free p _=>p=0 ∨ ∃b∈s.live,b.addr=p
 | .write b _=>b∈s.live

def boot (turns:ℕ)(mem:Memory):Option (List Desc×State):=do
 let (descs,links)←mallocInit turns mem.links
 return (descs,⟨⟨{mem with links},[]⟩,[]⟩)

end Pintos.Malloc
