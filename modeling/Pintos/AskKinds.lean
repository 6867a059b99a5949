import Pintos.Syscall

namespace Pintos.AskKinds
open Interaction Paging Process Syscall

inductive Kind where
 | word | byte | store | isMapped | putbuf | fd | setFd | lockAcquire | lockRelease | filesys
 | seek | tell | palloc | pallocFree | fill | pagedir | setPagedir | spawn | processWait
 | powerOff | exit | assertion | nullPointer | overflow | hang
 deriving DecidableEq,Repr

def kind:Ask→Kind
 | .word _=>.word
 | .byte _=>.byte
 | .store ..=>.store
 | .isMapped _=>.isMapped
 | .putbuf ..=>.putbuf
 | .fd _=>.fd
 | .setFd ..=>.setFd
 | .lockAcquire=>.lockAcquire
 | .lockRelease=>.lockRelease
 | .filesys _=>.filesys
 | .seek ..=>.seek
 | .tell _=>.tell
 | .palloc _=>.palloc
 | .pallocFree _=>.pallocFree
 | .fill ..=>.fill
 | .pagedir=>.pagedir
 | .setPagedir _=>.setPagedir
 | .spawn ..=>.spawn
 | .processWait _=>.processWait
 | .powerOff=>.powerOff
 | .exit _=>.exit
 | .assertion _=>.assertion
 | .nullPointer=>.nullPointer
 | .overflow=>.overflow
 | .hang=>.hang

section
variable {α β:Type}{ks ks':List Kind}{p:Proc α}

/-- The code asks only for what is of one of these kinds. -/
def Only (ks:List Kind)(p:Proc α):Prop:=Avoids (fun q=>decide (kind q∈ks)=false) p

lemma only_pure (a:α):Only ks (pure a:Proc α):=avoids_pure a
lemma only_ask {q:Ask}(h:decide (kind q∈ks)=true):Only ks (ask q:Proc q.Answer):=
 avoids_ask (by rw[h];nofun)
lemma only_stop {q:Ask}{none:q.Answer → Empty}(h:decide (kind q∈ks)=true):
 Only ks (stop q none:Proc α):=
 avoids_stop (by rw[h];nofun)
lemma only_bind {f:α→Proc β}(hp:Only ks p)(hf:∀a,Only ks (f a)):Only ks (p >>= f):=
 avoids_bind hp hf
lemma Only.mono (h:Only ks p)(more:ks ⊆ ks'):Only ks' p:=
 Avoids.mono h fun _ hq=>decide_eq_false fun hk=>of_decide_eq_false hq (more hk)
lemma Only.avoids (h:Only ks p){bad:Ask→Prop}(good:∀q,kind q∈ks → ¬bad q):Avoids bad p:=
 Avoids.mono h fun q hq=>decide_eq_false fun hk=>good q hk hq

end

def copying:List Kind:=[.byte,.assertion,.hang]

lemma only_strlen (a:Addr):Only copying (strlen a):=by
 have loop:∀turns a,Only copying (strlenFrom turns a):=by
  intro turns
  induction turns with
  | zero=>exact fun a=>only_stop rfl
  | succ turns ih=>
   intro a
   refine only_bind (only_ask rfl) fun b=>?_
   split
   · exact only_pure _
   · exact only_bind (ih _) fun _=>only_pure _
 unfold strlen
 split
 · exact only_stop rfl
 · exact loop _ a

lemma only_memcpy (n:ℕ)(a:Addr):Only copying (memcpy n a):=by
 induction n generalizing a with
 | zero=>exact only_pure _
 | succ n ih=>exact only_bind (only_ask rfl) fun _=>only_bind (ih _) fun _=>only_pure _
lemma only_strlcpy (a:Addr)(size:ℕ):Only copying (strlcpy a size):=
 only_bind (only_strlen a) fun _=>only_memcpy _ a
def fileAsks:List Kind:=[.filesys,.seek,.tell,.assertion,.nullPointer]

section
variable (file:Option ℕ)

lemma only_fileLength:Only fileAsks (fileLength file):=by
 cases file with
 | none=>exact only_stop rfl
 | some f=>exact only_ask rfl
lemma only_fileRead (buffer:Buffer)(size:ℤ):Only fileAsks (fileRead file buffer size):=by
 cases file with
 | none=>exact only_stop rfl
 | some f=>exact only_ask rfl
lemma only_fileWrite (buffer:Addr)(size:ℤ):Only fileAsks (fileWrite file buffer size):=by
 cases file with
 | none=>exact only_stop rfl
 | some f=>exact only_ask rfl

lemma only_fileSeek (pos:ℤ):Only fileAsks (fileSeek file pos):=by
 unfold fileSeek
 cases file with
 | none=>exact only_stop rfl
 | some f=>
  dsimp only
  split
  · exact only_stop rfl
  · exact only_ask rfl

lemma only_fileTell:Only fileAsks (fileTell file):=by
 cases file with
 | none=>exact only_stop rfl
 | some f=>exact only_ask rfl
lemma only_fileClose:Only fileAsks (fileClose file):=by
 cases file with
 | none=>exact only_pure _
 | some f=>exact only_ask rfl

end

def pageAsks:List Kind:=[.palloc,.pallocFree,.fill,.pagedir,.setPagedir,.assertion]
def mapAsks:List Kind:=[.palloc,.pallocFree,.pagedir,.setPagedir,.assertion]

lemma only_pagedirSetPage (pd:PageDir)(upage:Addr)(kpage:ℕ)(writable:Bool):
 Only mapAsks (pagedirSetPage pd upage kpage writable):=by
 unfold pagedirSetPage
 split
 · exact only_stop rfl
 split
 · split
   · exact only_stop rfl
   · exact only_pure _
 · refine only_bind (only_ask rfl) fun page=>?_
   rcases page with _|page
   · exact only_pure _
   · exact only_pure _

lemma only_installPage (upage:Addr)(kpage:ℕ)(writable:Bool):
 Only mapAsks (installPage upage kpage writable):=by
 refine only_bind (only_ask rfl) fun pd=>?_
 rcases pd with _|pd
 · exact only_stop rfl
 dsimp only
 split
 · exact only_pure _
 refine only_bind (only_pagedirSetPage _ _ _ _) fun new=>?_
 cases new with
 | none=>exact only_pure _
 | some new=>exact only_bind (only_ask rfl) fun _=>only_pure _

lemma only_freePages (pages:List ℕ):Only pageAsks (pages.forM pallocFreePage):=by
 induction pages with
 | nil=>exact only_pure _
 | cons page rest ih=>exact only_bind (only_ask rfl) fun _=>ih
def loading:List Kind:=[.store,.overflow,.hang]++fileAsks++pageAsks

section
variable (file:Option ℕ)

lemma only_loadPage (upage:Addr)(readBytes:ℕ)(writable:Bool):
 Only loading (loadPage file upage readBytes writable):=by
 refine only_bind (only_ask rfl) fun page=>?_
 rcases page with _|kpage
 · exact only_pure _
 refine only_bind ((only_fileRead file _ _).mono (by decide)) fun bytes=>?_
 split
 · exact only_bind (only_ask rfl) fun _=>only_pure _
 refine only_bind (only_ask rfl) fun _=>
  only_bind ((only_installPage _ _ _).mono (by decide)) fun ok=>?_
 cases ok with
 | true=>exact only_pure _
 | false=>exact only_bind (only_ask rfl) fun _=>only_pure _

lemma only_loadPages (writable:Bool)(turns:ℕ)(upage:Addr)(readBytes zeroBytes:ℕ):
 Only loading (loadPages file writable turns upage readBytes zeroBytes):=by
 induction turns generalizing upage readBytes zeroBytes with
 | zero=>exact only_stop rfl
 | succ turns ih=>
  unfold loadPages
  split
  · exact only_pure _
  refine only_bind (only_loadPage file _ _ _) fun ok=>?_
  cases ok with
  | true=>exact ih _ _ _
  | false=>exact only_pure _

lemma only_loadHeader (h:Phdr):Only loading (loadHeader file h):=by
 unfold loadHeader
 split
 · exact only_pure _
 split
 · refine only_bind ((only_fileLength file).mono (by decide)) fun length=>?_
   split
   · unfold loadSegment
     dsimp only
     split
     · exact only_stop rfl
     · exact only_bind ((only_fileSeek file _).mono (by decide)) fun _=>
        only_loadPages file _ _ _ _ _
   · exact only_pure _
 · exact only_pure _

lemma only_loadHeaders (n:ℕ)(fileOfs:ℤ):Only loading (loadHeaders file n fileOfs):=by
 induction n generalizing fileOfs with
 | zero=>exact only_pure _
 | succ n ih=>
  unfold loadHeaders
  split
  · exact only_pure _
  refine only_bind ((only_fileLength file).mono (by decide)) fun length=>?_
  split
  · exact only_pure _
  refine only_bind ((only_fileSeek file _).mono (by decide)) fun _=>
   only_bind ((only_fileRead file _ _).mono (by decide)) fun bytes=>?_
  split
  · exact only_pure _
  refine only_bind (only_loadHeader file _) fun ok=>?_
  cases ok with
  | true=>exact ih _
  | false=>exact only_pure _

lemma only_pushStrings (strings:List (List UInt8))(kp:Addr)(pointers:List Addr):
 Only [.store,.overflow] (pushStrings strings kp pointers):=by
 induction strings generalizing kp pointers with
 | nil=>exact only_pure _
 | cons token rest ih=>
  unfold pushStrings
  split
  · exact only_stop rfl
  · exact only_bind (only_ask rfl) fun _=>ih _ _

lemma only_pushWords (words:List ℕ)(kp:Addr):Only [.store,.overflow] (pushWords words kp):=by
 induction words generalizing kp with
 | nil=>exact only_pure _
 | cons n rest ih=>exact only_bind (only_ask rfl) fun _=>ih _
lemma only_pushArguments (input:List UInt8):Only [.store,.overflow] (pushArguments input):=
 only_bind (only_pushStrings _ _ _) fun _=>only_bind (only_pushWords _ _) fun _=>
  only_pushWords _ _

lemma only_setupStack (input:List UInt8):Only loading (setupStack input):=by
 refine only_bind (only_ask rfl) fun page=>?_
 rcases page with _|page
 · exact only_pure _
 have push:∀success:Bool,Only loading (do
   let esp←pushArguments (input.take (pgSize-1))
   return (success,esp)):=fun success=>
  only_bind ((only_pushArguments _).mono (by decide)) fun _=>only_pure _
 refine only_bind (only_ask rfl) fun kpage=>?_
 rcases kpage with _|kpage
 · exact push false
 refine only_bind ((only_installPage _ _ _).mono (by decide)) fun ok=>?_
 cases ok with
 | true=>exact push true
 | false=>exact only_bind (only_ask rfl) fun _=>push false

lemma only_loadFile (input:List UInt8):Only loading (loadFile file input):=by
 refine only_bind ((only_fileRead file _ _).mono (by decide)) fun bytes=>?_
 dsimp only
 split
 · exact only_pure _
 refine only_bind (only_loadHeaders file _ _) fun ok=>?_
 cases ok with
 | true=>exact only_bind (only_setupStack input) fun _=>only_pure _
 | false=>exact only_pure _

lemma only_load (init:PageDir)(fileName:Option (List UInt8))(input:List UInt8):
 Only loading (load init fileName input):=by
 refine only_bind (only_bind (only_ask rfl) fun _=>only_pure _) fun pd=>?_
 cases pd with
 | none=>exact only_pure _
 | some pd=>
  refine only_bind (only_ask rfl) fun _=>only_bind (only_ask rfl) fun file=>?_
  rcases file with _|file
  · exact only_pure _
  · exact only_bind (only_loadFile (some file) input) fun _=>
     only_bind ((only_fileClose (some file)).mono (by decide)) fun _=>only_pure _

lemma only_startProcess (init:PageDir)(input:List UInt8):
 Only (.exit::loading) (startProcess init input):=by
 refine only_bind (only_ask rfl) fun page=>?_
 rcases page with _|copy
 · exact only_stop rfl
 refine only_bind ((only_load init _ input).mono (List.subset_cons_self _ _)) fun image=>
  only_bind (only_ask rfl) fun _=>?_
 cases image with
 | none=>exact only_stop rfl
 | some entry=>exact only_pure _

end

def executing:List Kind:=[.palloc,.pallocFree,.spawn]++copying

lemma only_threadCreate (name:Option (List UInt8))(input:List UInt8):
 Only executing (threadCreate name input):=by
 refine only_bind (only_ask rfl) fun page=>?_
 rcases page with _|page
 · exact only_pure _
 · cases name with
   | none=>exact only_stop rfl
   | some name=>exact only_bind (only_ask rfl) fun _=>only_pure _

lemma only_processExecute (input:Addr):Only executing (processExecute input):=by
 have copied:Only executing (strlcpy input pgSize):=(only_strlcpy input _).mono (by decide)
 refine only_bind (only_ask rfl) fun page=>?_
 rcases page with _|page
 · exact only_pure _
 refine only_bind (only_ask rfl) fun page2=>?_
 rcases page2 with _|page2
 · exact only_pure _
 refine only_bind copied fun copy=>only_bind copied fun copy2=>
  only_bind (only_threadCreate _ _) fun tid=>?_
 cases tid with
 | none=>exact only_bind (only_ask rfl) fun _=>only_pure _
 | some tid=>exact only_pure _

lemma only_closeAll (slots:List ℕ):Only (.fd::.setFd::fileAsks) (closeAll slots):=by
 induction slots with
 | nil=>exact only_pure _
 | cons i rest ih=>
  exact only_bind (only_ask rfl) fun file=>only_bind ((only_fileClose file).mono (by decide))
   fun _=>only_bind (only_ask rfl) fun _=>ih

lemma only_processExit:Only ([.fd,.setFd]++fileAsks++pageAsks) processExit:=by
 refine only_bind ((only_closeAll _).mono (by decide)) fun _=>
  only_bind (only_ask rfl) fun pd=>?_
 rcases pd with _|pd
 · exact only_pure _
 · refine only_bind (only_ask rfl) fun _=>?_
   unfold pagedirDestroy
   generalize userPages pd=pages
   exact (only_freePages pages).mono (by decide)

lemma only_badPointer (a:Addr):Only [.isMapped] (badPointer a):=by
 unfold badPointer
 split
 · exact only_pure _
 · exact only_bind (only_ask rfl) fun _=>only_pure _

def callAsks:List Kind:=
 [.word,.byte,.isMapped,.putbuf,.fd,.setFd,.lockAcquire,.lockRelease,.processWait,
  .powerOff,.exit,.hang]++fileAsks
variable {α:Type}

lemma only_exit (status:ℤ):Only callAsks (Syscall.exit status:Proc α):=only_stop rfl

lemma only_guarded {a:Addr}{p:Proc α}(h:Only callAsks p):
 Only callAsks (do if←badPointer a then Syscall.exit (-1) else p):=by
 refine only_bind ((only_badPointer a).mono (by decide)) fun bad=>?_
 cases bad with
 | true=>exact only_exit _
 | false=>exact h

lemma only_locked {body:Proc α}(h:Only callAsks body):Only callAsks (locked body):=
 only_bind (only_ask rfl) fun _=>only_bind h fun _=>
  only_bind (only_ask rfl) fun _=>only_pure _

lemma only_wait (pid:Addr):Only callAsks (wait pid):=by
 unfold wait
 split
 · exact only_exit _
 refine only_bind (only_ask rfl) fun mapped=>?_
 cases mapped with
 | true=>exact only_exit _
 | false=>exact only_ask rfl

lemma only_create (a:Addr)(size:ℕ):Only callAsks (create a size):=by
 refine only_guarded (only_bind (only_ask rfl) fun first=>?_)
 split
 · exact only_pure _
 refine only_bind ((only_strlen a).mono (by decide)) fun length=>?_
 split
 · exact only_pure _
 · exact only_locked (only_ask rfl)

lemma only_openFrom (a:Addr)(slots:List ℕ):Only callAsks (openFrom a slots):=by
 induction slots with
 | nil=>exact only_pure _
 | cons i rest ih=>
  refine only_bind (only_ask rfl) fun slot=>?_
  split
  · exact only_bind (only_ask rfl) fun _=>only_bind (only_ask rfl) fun _=>
     only_bind (only_ask rfl) fun _=>only_bind (only_ask rfl) fun _=>
     only_bind (only_ask rfl) fun _=>only_pure _
  · exact ih

lemma only_openFile (a:Addr):Only callAsks (openFile a):=by
 unfold openFile
 split
 · exact only_pure _
 refine only_guarded (only_bind (only_ask rfl) fun first=>?_)
 split
 · exact only_pure _
 · exact only_openFrom a _

lemma only_onFd {f:Option ℕ→Proc α}(fd:ℤ)(h:∀file,Only callAsks (f file)):
 Only callAsks (theFd fd >>= f):=
 only_bind (only_ask rfl) h

lemma only_filesize (fd:ℤ):Only callAsks (filesize fd):=by
 unfold filesize withFd
 split
 · exact only_exit _
 · exact only_onFd fd fun file=>(only_fileLength file).mono (by decide)

lemma only_lockedFd {f:Option ℕ→Proc α}(fd:ℤ)(h:∀file,Only callAsks (f file)):
 Only callAsks (lockedFd fd f):=by
 unfold lockedFd
 split
 · exact only_exit _
 · exact only_locked (only_onFd fd h)

lemma only_read (fd:ℤ)(a:Addr)(size:ℕ):Only callAsks (Syscall.read fd a size):=by
 unfold Syscall.read
 split
 · exact only_exit _
 · exact only_guarded (only_locked (only_onFd fd fun file=>
    only_bind ((only_fileRead file _ _).mono (by decide)) fun _=>only_pure _))

lemma only_write (fd:ℤ)(a:Addr)(size:ℕ):Only callAsks (write fd a size):=by
 unfold write
 split
 · exact only_exit _
 refine only_guarded ?_
 split
 · exact only_bind (only_ask rfl) fun _=>only_pure _
 · exact only_locked (only_onFd fd fun file=>(only_fileWrite file _ _).mono (by decide))

lemma only_close (fd:ℤ):Only callAsks (close fd):=
 only_lockedFd fd fun file=>
  only_bind ((only_fileClose file).mono (by decide)) fun _=>only_ask rfl
lemma only_returns {f:α→ℤ}{c:Proc α}(h:Only callAsks c):Only callAsks (returns f c):=
 only_bind h fun _=>only_pure _
lemma only_returnsNothing {c:Proc Unit}(h:Only callAsks c):Only callAsks (returnsNothing c):=
 only_bind h fun _=>only_pure _
lemma only_arg {a:Addr}{f:UInt32→Proc α}(h:∀x,Only callAsks (f x)):
 Only callAsks (loadWord a >>= f):=
 only_bind (only_ask rfl) h

lemma only_ite {c:Prop}[Decidable c]{p q:Proc α}(hp:Only callAsks p)
 (hq:Only callAsks q):Only callAsks (if c then p else q):=by
 split
 · exact hp
 · exact hq

lemma only_dispatch (esp:Addr){number:ℕ}(other:number≠2):Only callAsks (dispatch esp number):=by
 unfold dispatch
 obtain _|_|_|_|_|_|_|_|_|_|_|_|_|_|n:=number
 · exact only_returns (only_bind (only_ask rfl) fun _=>only_stop rfl)
 · exact only_ite (only_arg fun _=>only_exit _) (only_exit _)
 · exact absurd rfl other
 · exact only_arg fun _=>only_returns (only_wait _)
 · exact only_arg fun _=>only_arg fun _=>only_returns (only_create _ _)
 · exact only_arg fun _=>only_returns (only_locked (only_ask rfl))
 · exact only_arg fun _=>only_returns (only_openFile _)
 · exact only_arg fun _=>only_returns (only_filesize _)
 · exact only_arg fun _=>only_arg fun _=>only_arg fun _=>only_returns (only_read _ _ _)
 · exact only_ite (only_arg fun _=>only_arg fun _=>only_arg fun _=>
    only_returns (only_write _ _ _)) (only_returns (only_write _ _ _))
 · exact only_arg fun _=>only_arg fun _=>only_returnsNothing
    (only_lockedFd _ fun file=>(only_fileSeek file _).mono (by decide))
 · exact only_arg fun _=>only_returns
    (only_lockedFd _ fun file=>(only_fileTell file).mono (by decide))
 · exact only_arg fun _=>only_returnsNothing (only_close _)
 · exact only_arg fun _=>only_arg fun _=>only_returns (only_pure _)
 · exact only_pure _

end Pintos.AskKinds
