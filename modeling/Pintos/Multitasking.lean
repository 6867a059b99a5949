import Pintos.ExecRuns
import Pintos.Interaction

/-!
# Threads that share a processor

Each thread has its own code and its own stack of calls; there is one interrupt flag. The code of
functions is looked up in a table, so that functions and loops can call themselves.
-/
namespace Pintos.Multitasking
open ExecRuns Interaction Option
open Function (update update_self update_of_ne update_eq_self)

inductive Level where
 | off
 | on
 deriving DecidableEq,Repr

/-- What code does, on shared data `D` and with functions `F`. -/
inductive Op (D F:Type) where
 | level
 | cli
 | sti
 | running
 | read
 | write (f:D→D)
 | input (port:ℕ)
 | output (port:ℕ) (byte:UInt8)
 | fail
 | switch (next:ℕ)
 | spawn (t start:ℕ)
 | call (f:F)
 | leave

variable {D F:Type}

/-- A thread that is switched to learns which thread ran before. -/
def Answer (Ret:F→Type):Op D F→Type
 | .level=>Level
 | .running | .switch _=>ℕ
 | .read=>D
 | .input _=>UInt8
 | .fail=>Empty
 | .call f=>Ret f
 | _=>Unit

variable {Ret:F→Type}

abbrev Code (D F:Type)(Ret:F→Type)(α:Type):=Prog (Op D F) (Answer Ret) α
def act (e:Op D F):Code D F Ret (Answer Ret e):=ask e

/-- The code of functions and of new threads, and which functions handle interrupts. -/
structure Table (D F:Type)(Ret:F→Type) where
 body:(f:F) → Code D F Ret (Ret f)
 handler:F→Bool
 start:ℕ → ℕ → Code D F Ret Unit

/-- A call in progress: the level when it was made, and whether it has given up the processor
itself. -/
structure Call (F:Type) where
 fn:F
 entry:Level
 slept:Bool

structure Return (F:Type) extends Call F where
 exit:Level

/-- `calls` and `returns` are what an observer notes. -/
structure Machine (D F:Type)(Ret:F→Type) where
 level:Level
 running:ℕ
 data:D
 code:ℕ → Code D F Ret Unit
 calls:ℕ→List (Call F)
 returns:List (Return F)
 failed:Bool

/-- `byte` is what an input instruction reads in the step. -/
inductive Act (F:Type) where
 | step (byte:UInt8)
 | interrupt (f:F)

def mark (slept:Bool):List (Call F) → List (Call F)
 | []=>[]
 | c::rest=>{c with slept} :: rest

def calling {f:F}(body:Code D F Ret (Ret f))(k:Ret f → Code D F Ret Unit):
 Code D F Ret Unit:=do
 let v←body
 act .leave
 k v

section
variable (T:Table D F Ret)(m:Machine D F Ret)

def Machine.goOn (p:Code D F Ret Unit):Machine D F Ret:={m with code:=update m.code m.running p}
def Machine.push (c:Call F):Machine D F Ret:=
 {m with calls:=update m.calls m.running (c::m.calls m.running)}

/-- A thread that is not running is in a switch. -/
def resume (n:ℕ):Option (Machine D F Ret):=
 match m.code n with
 | .ask (.switch _) k=>some
  {m with
    running:=n
    code:=update m.code n (k m.running)
    calls:=update m.calls n (mark true (m.calls n))}
 | _=>none

def perform (byte:UInt8):(e:Op D F) → (Answer Ret e → Code D F Ret Unit) → Option (Machine D F Ret)
 | .level,k=>some (m.goOn (k m.level))
 | .cli,k=>some {m.goOn (k ()) with level:=.off}
 | .sti,k=>some {m.goOn (k ()) with level:=.on}
 | .running,k=>some (m.goOn (k m.running))
 | .read,k=>some (m.goOn (k m.data))
 | .write f,k=>some {m.goOn (k ()) with data:=f m.data}
 | .input _,k=>some (m.goOn (k byte))
 | .output _ _,k=>some (m.goOn (k ()))
 | .fail,_=>some {m with failed:=true}
 | .switch n,_=>resume m n
 | .spawn t start,k=>
  if t=m.running then none
  else some
   {m with
     code:=update (update m.code m.running (k ())) t
      (act (.switch t) >>= T.start start)
     calls:=update m.calls t []}
 | .call f,k=>some ((m.goOn (calling (T.body f) k)).push ⟨f,m.level,false⟩)
 | .leave,k=>
  match m.calls m.running with
  | []=>none
  | c::rest=>some
   {m.goOn (k ()) with
     calls:=update m.calls m.running rest
     returns:=m.returns++[⟨c,m.level⟩]}

/-- An interrupt is a call that the thread does not make itself. -/
def next:Act F→Option (Machine D F Ret)
 | .step byte=>
  if m.failed then none
  else match m.code m.running with
  | .ret _=>none
  | .ask e k=>perform T m byte e k
 | .interrupt f=>
  if m.failed ∨ m.level=.off ∨ T.handler f=false then none
  else some
   { (m.goOn (calling (T.body f) fun _=>m.code m.running)).push ⟨f,.on,false⟩ with
     level:=.off}

end

section
variable {e:Op D F}{k:Answer Ret e → Code D F Ret Unit}

/-- What is known about the flag, and whether the call has given up the processor. -/
structure Phase where
 level:Option Level
 slept:Bool

def Phase.Knows (s:Phase)(l:Level):Prop:=∀x,s.level=some x → l=x

/-- What is promised of every function: `keeps` says after which calls the flag is as before, and
`post` what holds of the levels on entry and on return. -/
structure Contract (F:Type) where
 keeps:F→Bool
 post:F→Level→Level→Bool→Prop

variable (T:Table D F Ret)(C:Contract F)

/-- Only with interrupts off may code switch, and they are off when it comes back. -/
def rules:Rules (Op D F) (Answer Ret) Phase where
 allowed s
  | .switch _=>s.level=some .off
  | .call f=>T.handler f=false
  | .leave=>False
  | _=>True
 admits s
  | .level,r=>s.Knows r
  | _,_=>True
 after s
  | .level,r=>⟨some r,s.slept⟩
  | .cli,_=>⟨some .off,s.slept⟩
  | .sti,_=>⟨some .on,s.slept⟩
  | .switch _,_=>⟨some .off,true⟩
  | .call f,_=>if C.keeps f then s else ⟨none,s.slept⟩
  | _,_=>s

/-- The code meets the rules and ends as is promised of `f` called at the level `entry`. -/
def Fulfils (f:F)(entry:Level)(p:Code D F Ret (Ret f))(s:Phase):Prop:=
 Meets (rules T C) p (fun _ s'=>∀l,s'.Knows l → C.post f entry l s'.slept) s

structure Sound:Prop where
 restores:∀f entry exit slept,C.post f entry exit slept → C.keeps f=true → exit=entry
 body:∀f entry,T.handler f=false → Fulfils T C f entry (T.body f) ⟨some entry,false⟩
 handlerKeeps:∀f,T.handler f=true → C.keeps f=true
 handler:∀f,T.handler f=true → Fulfils T C f .on (T.body f) ⟨some .off,false⟩
 start:∀i prev,Meets (rules T C) (T.start i prev) (fun _ _=>True) ⟨some .off,true⟩

/-- What the code of a thread, with its calls in progress, will do from the level `level` on. -/
def Good:List (Call F) → Level → Code D F Ret Unit → Prop
 | [],level,p=>∃s:Phase,s.Knows level ∧ Meets (rules T C) p (fun _ _=>True) s
 | c::rest,level,p=>
  ∃ (body:Code D F Ret (Ret c.fn)) (k:Ret c.fn → Code D F Ret Unit) (s:Phase),
   p=calling body k ∧ s.Knows level ∧ s.slept=c.slept ∧ Fulfils T C c.fn c.entry body s ∧
    ∀v l,(C.keeps c.fn=true → l=c.entry) → Good rest l (k v)

/-- A thread that does not run will be switched to with interrupts off. -/
structure Inv (m:Machine D F Ret):Prop where
 good:∀t,Good T C (m.calls t) (if t=m.running then m.level else .off) (m.code t)
 returned:∀r∈m.returns,C.post r.fn r.entry r.exit r.slept

variable {T C}{calls:List (Call F)}{level:Level}

section
variable (h:Good T C calls level (.ask e k))(inside:e≠.leave)
include h inside

lemma Good.ask:∃s:Phase,s.Knows level ∧ mark s.slept calls=calls ∧ (rules T C).allowed s e ∧
  ∀r l,(rules T C).admits s e r → ((rules T C).after s e r).Knows l →
   Good T C (mark ((rules T C).after s e r).slept calls) l (k r):=by
 cases calls with
 | nil=>
  obtain ⟨s,knows,allowed,rest⟩:=h
  exact ⟨s,knows,rfl,allowed,fun r l admits known=>⟨_,known,rest r admits⟩⟩
 | cons c others=>
  obtain ⟨body,caller,s,same,knows,slept,fulfils,back⟩:=h
  cases body with
  | ret v=>
   cases same
   exact absurd rfl inside
  | ask e' k'=>
   cases same
   refine ⟨s,knows,by rw[mark,slept],fulfils.1,fun r l admits known=>?_⟩
   exact ⟨k' r,caller,_,rfl,known,rfl,fulfils.2 r admits,back⟩

lemma Good.quiet (same:∀s r,(rules T C).admits s e r ∧ (rules T C).after s e r=s)(r:Answer Ret e):
 Good T C calls level (k r):=by
 obtain ⟨s,knows,marked,-,goes⟩:=h.ask inside
 have after:=goes r level (same s r).1
 rw[(same s r).2,marked] at after
 exact after knows

lemma Good.sets {r:Answer Ret e}{l:Level}(admits:∀s:Phase,s.Knows level → (rules T C).admits s e r)
 (sets:∀s,(rules T C).after s e r=⟨some l,s.slept⟩):Good T C calls l (k r):=by
 obtain ⟨s,knows,marked,-,goes⟩:=h.ask inside
 have after:=goes r l (admits s knows)
 rw[sets s] at after
 rw[←marked]
 exact after fun x known=>some.inj known

end

lemma Good.leave (sound:Sound T C){k:Unit → Code D F Ret Unit}
 (h:Good T C calls level (.ask .leave k)):
 ∃c rest,calls=c::rest ∧ C.post c.fn c.entry level c.slept ∧ Good T C rest level (k ()):=by
 cases calls with
 | nil=>
  obtain ⟨s,-,allowed,-⟩:=h
  exact allowed.elim
 | cons c others=>
  obtain ⟨body,caller,s,same,knows,slept,fulfils,back⟩:=h
  cases body with
  | ret v=>
   cases same
   have post:C.post c.fn c.entry level c.slept:=slept▸fulfils level knows
   exact ⟨c,others,rfl,post,back v level (sound.restores _ _ _ _ post)⟩
  | ask e' k'=>
   cases same
   exact fulfils.1.elim

lemma Good.call (sound:Sound T C){f:F}{k:Ret f → Code D F Ret Unit}
 (h:Good T C calls level (.ask (.call f) k)):
 Good T C (⟨f,level,false⟩::calls) level (calling (T.body f) k):=by
 obtain ⟨s,knows,marked,allowed,goes⟩:=h.ask nofun
 refine ⟨T.body f,k,_,rfl,fun x known=>some.inj known,rfl,
  sound.body f level allowed,fun v l restored=>?_⟩
 have after:=goes v l trivial
 dsimp only[rules] at after
 cases keeps:C.keeps f with
 | true=>
  rw[if_pos keeps,marked] at after
  exact after (restored keeps▸knows)
 | false=>
  rw[if_neg (by simp[keeps]),marked] at after
  exact after nofun

lemma Good.interrupt (sound:Sound T C){f:F}(handler:T.handler f=true)
 {p:Code D F Ret Unit}(h:Good T C calls .on p):
 Good T C (⟨f,.on,false⟩::calls) .off (calling (T.body f) fun _=>p):=by
 refine ⟨T.body f,fun _=>p,_,rfl,fun x known=>some.inj known,rfl,
  sound.handler f handler,fun v l restored=>?_⟩
 rw[restored (sound.handlerKeeps f handler)]
 exact h

lemma Good.switch {n:ℕ}{k:ℕ → Code D F Ret Unit}(h:Good T C calls level (.ask (.switch n) k)):
 level=.off ∧ ∀prev,Good T C (mark true calls) .off (k prev):=by
 obtain ⟨s,knows,-,allowed,goes⟩:=h.ask nofun
 exact ⟨knows .off allowed,fun prev=>goes prev .off trivial fun x known=>
  some.inj known⟩

end
variable {T:Table D F Ret}{C:Contract F}{m m':Machine D F Ret}{p:Code D F Ret Unit}

lemma Inv.running (inv:Inv T C m):Good T C (m.calls m.running) m.level (m.code m.running):=by
 have good:=inv.good m.running
 rwa[if_pos rfl] at good

lemma Inv.goOn (inv:Inv T C m)(data:D){calls:List (Call F)}{level:Level}
 (good:Good T C calls level p):
 Inv T C {m with
  level,data
  code:=update m.code m.running p
  calls:=update m.calls m.running calls}:=by
 refine ⟨fun t=>?_,inv.returned⟩
 by_cases own:t=m.running
 · subst own
   simpa using good
 · have other:=inv.good t
   simpa[own] using other

lemma Inv.advance (inv:Inv T C m){level:Level}(data:D)
 (good:Good T C (m.calls m.running) level p):Inv T C {m.goOn p with level,data}:=by
 have goes:=inv.goOn data good
 rwa[update_eq_self] at goes

lemma resume_inv (inv:Inv T C m)(off:m.level=.off){n:ℕ}(step:resume m n=some m'):Inv T C m':=by
 unfold resume at step
 split at step
 · rename_i x k waits
   cases step
   have target:Good T C (m.calls n) .off (m.code n):=by
    have good:=inv.good n
    rwa[off,ite_self] at good
   rw[waits] at target
   refine ⟨fun t=>?_,inv.returned⟩
   dsimp only
   rw[off,ite_self]
   by_cases own:t=n
   · subst own
     rw[update_self,update_self]
     exact target.switch.2 m.running
   · have other:=inv.good t
     rwa[off,ite_self,←update_of_ne own (k m.running) m.code,
      ← update_of_ne own (mark true (m.calls n)) m.calls] at other
 · cases step

lemma spawn_inv (sound:Sound T C)(inv:Inv T C m){t start:ℕ}(other:t≠m.running)
 (good:Good T C (m.calls m.running) m.level p):
 Inv T C {m with
  code:=update (update m.code m.running p) t
   (act (.switch t) >>= T.start start)
  calls:=update m.calls t []}:=by
 have goes:=inv.advance m.data good
 refine ⟨fun u=>?_,inv.returned⟩
 dsimp only
 by_cases own:u=t
 · subst own
   rw[update_self,update_self,if_neg other]
   exact ⟨⟨some .off,false⟩,fun x known=>some.inj known,rfl,
    fun prev _=>sound.start start prev⟩
 · rw[update_of_ne own,update_of_ne own]
   exact goes.good u

lemma leave_inv (inv:Inv T C m){c:Call F}{rest:List (Call F)}
 (post:C.post c.fn c.entry m.level c.slept)(good:Good T C rest m.level p):
 Inv T C {m.goOn p with
  calls:=update m.calls m.running rest
  returns:=m.returns++[⟨c,m.level⟩]}:=by
 refine ⟨(inv.goOn m.data good).good,fun r mem=>?_⟩
 rcases List.mem_append.1 mem with old|new
 · exact inv.returned r old
 · obtain rfl:=List.mem_singleton.1 new
   exact post

lemma perform_inv (sound:Sound T C)(inv:Inv T C m){byte:UInt8}{e:Op D F}
 {k:Answer Ret e → Code D F Ret Unit}(here:m.code m.running=.ask e k)
 (step:perform T m byte e k=some m'):Inv T C m':=by
 have good:=inv.running
 rw[here] at good
 cases e with
 | leave=>
  obtain ⟨c,rest,calls,post,goes⟩:=good.leave sound
  unfold perform at step
  rw[calls] at step
  cases step
  exact leave_inv inv post goes
 | call f=>
  cases step
  exact inv.goOn m.data (good.call sound)
 | switch n=>exact resume_inv inv good.switch.1 step
 | spawn t start=>
  change (if t=m.running then none else some _)=some m' at step
  split at step
  · cases step
  · rename_i other
    cases step
    exact spawn_inv sound inv other (good.quiet nofun (fun _ _=>⟨trivial,rfl⟩) ())
 | fail=>
  cases step
  exact ⟨inv.good,inv.returned⟩
 | level=>
  cases step
  exact inv.advance m.data (good.sets nofun (fun _ knows=>knows) fun _=>rfl)
 | cli=>
  cases step
  exact inv.advance m.data (good.sets nofun (fun _ _=>trivial) fun _=>rfl)
 | sti=>
  cases step
  exact inv.advance m.data (good.sets nofun (fun _ _=>trivial) fun _=>rfl)
 | running=>
  cases step
  exact inv.advance m.data (good.quiet nofun (fun _ _=>⟨trivial,rfl⟩) m.running)
 | read=>
  cases step
  exact inv.advance m.data (good.quiet nofun (fun _ _=>⟨trivial,rfl⟩) m.data)
 | write f=>
  cases step
  exact inv.advance (f m.data) (good.quiet nofun (fun _ _=>⟨trivial,rfl⟩) ())
 | input port=>
  cases step
  exact inv.advance m.data (good.quiet nofun (fun _ _=>⟨trivial,rfl⟩) byte)
 | output port b=>
  cases step
  exact inv.advance m.data (good.quiet nofun (fun _ _=>⟨trivial,rfl⟩) ())

lemma next_inv (sound:Sound T C)(inv:Inv T C m){a:Act F}(step:next T m a=some m'):Inv T C m':=by
 cases a with
 | step byte=>
  simp only[next] at step
  split at step
  · cases step
  · split at step
    · cases step
    · rename_i here
      exact perform_inv sound inv here step
 | interrupt f=>
  simp only[next] at step
  split at step
  · cases step
  · rename_i allowed
    push Not at allowed
    cases step
    have on:m.level=.on:=by
     cases level:m.level with
     | on=>rfl
     | off=>exact absurd level allowed.2.1
    have good:=inv.running
    rw[on] at good
    exact inv.goOn m.data (good.interrupt sound (by simpa using allowed.2.2))

lemma runs_inv (sound:Sound T C){as:List (Act F)}
 (run:Runs (next T) Always m as m')(inv:Inv T C m):Inv T C m':=
 run.invariant (fun _ _ _ inv _ step=>next_inv sound inv step) inv

variable {α β:Type}{s t u:Phase}

/-- Whatever it is answered, the code goes from one phase to the other. -/
def Takes (T:Table D F Ret)(C:Contract F)(p:Code D F Ret α)(s t:Phase):Prop:=
 Meets (rules T C) p (fun _ t'=>t'=t) s

lemma Takes.bind {p:Code D F Ret α}{f:α → Code D F Ret β}(h:Takes T C p s t)
 (rest:∀a,Takes T C (f a) t u):Takes T C (p >>= f) s u:=by
 refine meets_bind.2 (h.mono ?_)
 rintro a _ rfl
 exact rest a

lemma takes_pure (a:α):Takes T C (pure a:Code D F Ret α) s s:=rfl
lemma takes_fail:Takes T C (stop .fail id:Code D F Ret α) s t:=meets_stop trivial
lemma takes_quiet {e:Op D F}(allowed:(rules T C).allowed s e)
 (same:∀r,(rules T C).after s e r=s):Takes T C (act e) s s:=
 ⟨allowed,fun r _=>same r⟩
lemma takes_level {f:Level → Code D F Ret β}(rest:∀l,s.Knows l → Takes T C (f l) ⟨some l,s.slept⟩ u):
 Takes T C (act .level >>= f) s u:=
 ⟨trivial,fun l knows=>rest l knows⟩
lemma takes_cli:Takes T C (act .cli) s ⟨some .off,s.slept⟩:=⟨trivial,fun _ _=>rfl⟩
lemma takes_sti:Takes T C (act .sti) s ⟨some .on,s.slept⟩:=⟨trivial,fun _ _=>rfl⟩
lemma takes_switch {n:ℕ}{slept:Bool}:
 Takes T C (act (.switch n)) ⟨some .off,slept⟩ ⟨some .off,true⟩:=
 ⟨rfl,fun _ _=>rfl⟩
lemma takes_call {f:F}(called:T.handler f=false)(keeps:C.keeps f=true):
 Takes T C (act (.call f)) s s:=
 takes_quiet called fun _=>if_pos keeps

lemma Takes.fulfils {f:F}{entry:Level}{p:Code D F Ret (Ret f)}
 (h:Takes T C p s t)(post:∀l,t.Knows l → C.post f entry l t.slept):
 Fulfils T C f entry p s:=by
 refine Meets.mono h ?_
 rintro _ _ rfl
 exact post

/-- What only functions of the table and the hardware do. -/
def Reserved (T:Table D F Ret):Op D F→Prop
 | .switch _ | .leave=>True
 | .call f=>T.handler f=true
 | _=>False

def Plain (T:Table D F Ret)(p:Code D F Ret α):Prop:=Avoids (Reserved T) p

lemma Plain.meets {p:Code D F Ret α}(h:Plain T p)(s:Phase):
 Meets (rules T C) p (fun _ t=>t.slept=s.slept) s:=by
 induction p generalizing s with
 | ret a=>exact rfl
 | ask e k ih=>
  have rest (t:Phase) (same:t.slept=s.slept) (r:Answer Ret e):
    Meets (rules T C) (k r) (fun _ t=>t.slept=s.slept) t:=by
   rw[←same]
   exact ih r (h.2 r) t
  cases e with
  | switch n | leave=>exact absurd trivial h.1
  | call f=>
   refine ⟨(Bool.not_eq_true _).mp h.1,fun r _=>rest _ ?_ r⟩
   dsimp only[rules]
   split<;>rfl
  | _=>exact ⟨trivial,fun r _=>rest ((rules T C).after s _ r) rfl r⟩

end Pintos.Multitasking
