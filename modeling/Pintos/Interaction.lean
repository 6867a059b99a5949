import Pintos.ExecHoare

/-! Programs that ask an environment. What an ask does is left open: the same
program can be run by any handler, or reasoned about for all answers. -/
namespace Pintos.Interaction
open ExecHoare

inductive Prog (E:Type)(R:E→Type)(α:Type):Type where
 | ret (a:α):Prog E R α
 | ask (e:E) (k:R e → Prog E R α):Prog E R α

variable {E:Type}{R:E→Type}{α β:Type}

def Prog.bind:Prog E R α → (α→Prog E R β) → Prog E R β
 | .ret a,f=>f a
 | .ask e k,f=>.ask e (fun r=>(k r).bind f)
instance:Monad (Prog E R) where
 pure:=.ret
 bind:=.bind
def ask (e:E):Prog E R (R e):=.ask e .ret
def stop (e:E)(none:R e → Empty):Prog E R α:=.ask e (fun r=>(none r).elim)

section
variable {ε σ:Type}

def run (handle:(e:E) → Exec ε σ (R e)):Prog E R α→Exec ε σ α
 | .ret a=>pure a
 | .ask e k=>do
  let r←handle e
  run handle (k r)

variable {handle:(e:E) → Exec ε σ (R e)}{s:σ}{Q:α→σ→Prop}{F:ε→Prop}

@[simp] lemma holds_run_pure {a:α}:Holds (run handle (pure a:Prog E R α)) s Q F ↔ Q a s:=Iff.rfl

@[simp] lemma holds_run_ask {e:E}{Q:R e → σ → Prop}:
 Holds (run handle (ask e)) s Q F ↔ Holds (handle e) s Q F:=by
 change Holds (handle e >>= fun r=>pure r) s Q F ↔ _
 rw[holds_bind]
 rfl

@[simp] lemma holds_run_stop {e:E}{none:R e → Empty}:
 Holds (run handle (stop e none:Prog E R α)) s Q F ↔ Holds (handle e) s (fun _ _=>False) F:=by
 change Holds (handle e >>= fun r=>run handle ((none r).elim)) s Q F ↔ _
 rw[holds_bind]
 constructor<;>exact fun h=>h.imp fun r _ _=>(none r).elim

@[simp] lemma holds_run_bind {p:Prog E R α}{f:α→Prog E R β}{Q:β→σ→Prop}:
 Holds (run handle (p >>= f)) s Q F ↔
  Holds (run handle p) s (fun a t=>Holds (run handle (f a)) t Q F) F:=by
 induction p generalizing s with
 | ret a=>rfl
 | ask e k ih=>
  change Holds (handle e >>= fun r=>run handle ((k r).bind f)) s Q F ↔
   Holds (handle e >>= fun r=>run handle (k r)) s _ F
  rw[holds_bind,holds_bind]
  exact ⟨fun h=>h.imp fun r t=>(ih r).1,fun h=>h.imp fun r t=>(ih r).2⟩

lemma holds_run_then {p q:Prog E R Bool}{P P':Prop}{I J:σ→Prop}
 (first:Holds (run handle p) s (Decides P I) F)
 (second:∀t,P → I t → Holds (run handle q) t (Decides P' J) F):
 Holds (run handle (do if←p then q else return false)) s (Decides (P ∧ P') J) F:=by
 refine holds_run_bind.2 (first.imp fun ok t decided=>?_)
 cases ok with
 | false=>exact decides_false fun both=>absurd (decided.1.2 both.1) (by decide)
 | true=>
  have yes:=decided.1.1 rfl
  exact (second t yes (decided.2 rfl)).imp fun ok' u last=>
   last.imp (and_iff_right yes).symm id

end

section
variable {ε σ ρ:Type}{handle:(e:E) → Exec ε σ (R e)}{note:E→σ→ρ→ρ}{F:ε→Prop}

/-- The handler, with a record of the asks that it has carried out. -/
def recording (handle:(e:E) → Exec ε σ (R e))(note:E→σ→ρ→ρ)(e:E):
 Exec ε (σ×ρ) (R e):=fun s=>
 match (handle e).run s.1 with
 | .ok (r,t)=>.ok (r,t,note e s.1 s.2)
 | .error f=>.error f

lemma holds_recording {e:E}{s:σ×ρ}{Q:R e → σ×ρ → Prop}:Holds (recording handle note e) s Q F ↔
  Holds (handle e) s.1 (fun r t=>Q r (t,note e s.1 s.2)) F:=by
 unfold Holds recording
 simp only[StateT.run]
 cases handle e s.1<;>rfl

lemma holds_run_recording {p:Prog E R α}{s:σ×ρ}{Q:α→σ→Prop}:
 Holds (run (recording handle note) p) s (fun a t=>Q a t.1) F ↔ Holds (run handle p) s.1 Q F:=by
 induction p generalizing s with
 | ret a=>rfl
 | ask e k ih=>
  change Holds (recording handle note e >>= fun r=>run (recording handle note) (k r)) s _ F ↔
   Holds (handle e >>= fun r=>run handle (k r)) s.1 Q F
  rw[holds_bind,holds_bind,holds_recording]
  exact holds_congr fun r t=>ih r

end

section
variable {σ:Type}{allowed:σ→E→Prop}{after:(s:σ) → (e:E) → R e → σ}{p:Prog E R α}

/-- Whatever the answers are, the program asks only what is allowed in the phase it
is in, and returns with `Q`. -/
def Obeys (allowed:σ→E→Prop)(after:(s:σ) → (e:E) → R e → σ):Prog E R α → (α→σ→Prop) → σ → Prop
 | .ret a,Q,s=>Q a s
 | .ask e k,Q,s=>allowed s e ∧ ∀r,Obeys allowed after (k r) Q (after s e r)

variable {s:σ}{Q:α→σ→Prop}

@[simp] lemma obeys_stop {e:E}{none:R e → Empty}:
 Obeys allowed after (stop e none:Prog E R α) Q s ↔ allowed s e:=
 ⟨fun h=>h.1,fun h=>⟨h,fun r=>(none r).elim⟩⟩

@[simp] lemma obeys_bind {f:α→Prog E R β}{Q:β→σ→Prop}:Obeys allowed after (p >>= f) Q s ↔
  Obeys allowed after p (fun a t=>Obeys allowed after (f a) Q t) s:=by
 induction p generalizing s with
 | ret a=>rfl
 | ask e k ih=>exact and_congr_right fun _=>forall_congr' fun r=>ih r

lemma Obeys.mono {Q':α→σ→Prop}(h:Obeys allowed after p Q s)
 (weaker:∀a t,Q a t → Q' a t):Obeys allowed after p Q' s:=by
 induction p generalizing s with
 | ret a=>exact weaker a s h
 | ask e k ih=>exact ⟨h.1,fun r=>ih r (h.2 r)⟩

variable {ε τ:Type}{handle:(e:E) → Exec ε τ (R e)}{t:τ}{F:ε→Prop}

lemma Obeys.holds (h:Obeys allowed after p Q s)(rel:σ→τ→Prop)(start:rel s t)
 (safe:∀s t e,rel s t → allowed s e → Holds (handle e) t (fun r t'=>rel (after s e r) t') F):
 Holds (run handle p) t (fun a t'=>∃s',rel s' t' ∧ Q a s') F:=by
 induction p generalizing s t with
 | ret a=>exact ⟨s,start,h⟩
 | ask e k ih=>
  exact (safe s t e start h.1).seq fun r t' rel'=>ih r (h.2 r) rel'

end

section
variable {bad:E→Prop}{ε τ:Type}{handle:(e:E) → Exec ε τ (R e)}{t:τ}{F:ε→Prop}{p:Prog E R α}

/-- Whatever the answers are, nothing bad is asked. -/
def Avoids (bad:E→Prop)(p:Prog E R α):Prop:=
 Obeys (fun _ e=>¬bad e) (fun _ _ _=>()) p (fun _ _=>True) ()

lemma avoids_pure (a:α):Avoids bad (pure a:Prog E R α):=trivial
lemma avoids_ask {e:E}(h:¬bad e):Avoids bad (ask e:Prog E R (R e)):=⟨h,fun _=>trivial⟩
lemma avoids_stop {e:E}{none:R e → Empty}(h:¬bad e):Avoids bad (stop e none:Prog E R α):=
 obeys_stop.2 h
lemma avoids_bind {f:α→Prog E R β}(hp:Avoids bad p)(hf:∀a,Avoids bad (f a)):Avoids bad (p >>= f):=
 obeys_bind.2 (hp.mono fun a _ _=>hf a)
lemma Avoids.mono {bad':E→Prop}(h:Avoids bad p)(fewer:∀e,bad' e → bad e):Avoids bad' p:=by
 induction p with
 | ret a=>trivial
 | ask e k ih=>exact ⟨fun he=>h.1 (fewer e he),fun r=>ih r (h.2 r)⟩

lemma Avoids.obeys {σ:Type}{allowed:σ→E→Prop}{after:(s:σ) → (e:E) → R e → σ}
 {s:σ}{Q:α→σ→Prop}(h:Avoids bad p)
 (free:∀e,¬bad e → allowed s e ∧ ∀r,after s e r=s)(post:∀a,Q a s):
 Obeys allowed after p Q s:=by
 induction p with
 | ret a=>exact post a
 | ask e k ih=>
  refine ⟨(free e h.1).1,fun r=>?_⟩
  rw[(free e h.1).2 r]
  exact ih r (h.2 r)

lemma Avoids.holds (h:Avoids bad p)(safe:∀e t,¬bad e → Holds (handle e) t (fun _ _=>True) F):
 Holds (run handle p) t (fun _ _=>True) F:=
 (Obeys.holds h (fun _ _=>True) trivial (fun _ t e _ he=>safe e t he)).imp
  fun _ _ _=>trivial

lemma Avoids.recording {ρ:Type}{note:E→τ→ρ→ρ}{s:τ×ρ}{Q:α→τ×ρ→Prop}
 (h:Avoids bad p)(quiet:∀e t x,¬bad e → note e t x=x):
 Holds (run (recording handle note) p) s Q F ↔ Holds (run handle p) s.1 (fun a t=>Q a (t,s.2)) F:=by
 induction p generalizing s with
 | ret a=>rfl
 | ask e k ih=>
  change Holds (Interaction.recording handle note e >>= fun r=>
   run (Interaction.recording handle note) (k r)) s _ F ↔
    Holds (handle e >>= fun r=>run handle (k r)) s.1 _ F
  rw[holds_bind,holds_bind,holds_recording,quiet e _ _ h.1]
  exact holds_congr fun r t=>ih r (h.2 r)

/-- A handler that only stops as `F` forbids makes a program that must not return
stop as `F` forbids. -/
lemma Avoids.not_holds (h:Avoids bad p)(wrong:∀e t,¬bad e → ¬Holds (handle e) t (fun _ _=>False) F):
 ¬Holds (run handle p) t (fun _ _=>False) F:=by
 induction p generalizing t with
 | ret a=>exact id
 | ask e k ih=>
  intro hp
  change Holds (handle e >>= fun r=>run handle (k r)) t _ F at hp
  rw[holds_bind] at hp
  exact wrong e t h.1 (hp.imp fun r t' hr=>ih r (h.2 r) hr)

end

/-- What may be asked in a phase, which answers there are, and the phase after one. -/
structure Rules (E:Type)(R:E→Type)(σ:Type) where
 allowed:σ→E→Prop
 admits:(s:σ) → (e:E) → R e → Prop
 after:(s:σ) → (e:E) → R e → σ
variable {σ:Type}{rules:Rules E R σ}{s:σ}{Q:α→σ→Prop}{p:Prog E R α}

/-- As `Obeys`, for programs that are given only the answers that there are. -/
def Meets (rules:Rules E R σ):Prog E R α → (α→σ→Prop) → σ → Prop
 | .ret a,Q,s=>Q a s
 | .ask e k,Q,s=>
  rules.allowed s e ∧ ∀r,rules.admits s e r → Meets rules (k r) Q (rules.after s e r)

lemma meets_stop {e:E}{none:R e → Empty}(h:rules.allowed s e):
 Meets rules (stop e none:Prog E R α) Q s:=
 ⟨h,fun r=>(none r).elim⟩
lemma meets_ask {e:E}{f:R e → Prog E R α}(h:rules.allowed s e)
 (rest:∀r,rules.admits s e r → Meets rules (f r) Q (rules.after s e r)):
 Meets rules (ask e >>= f) Q s:=⟨h,rest⟩

lemma meets_bind {f:α→Prog E R β}{Q:β→σ→Prop}:
 Meets rules (p >>= f) Q s ↔ Meets rules p (fun a t=>Meets rules (f a) Q t) s:=by
 induction p generalizing s with
 | ret a=>rfl
 | ask e k ih=>
  exact and_congr_right fun _=>forall_congr' fun r=>imp_congr_right fun _=>ih r

lemma meets_ite {c:Prop}[Decidable c]{q:Prog E R α}(yes:c → Meets rules p Q s)
 (no:¬c → Meets rules q Q s):Meets rules (if c then p else q) Q s:=by
 by_cases h:c
 · rw[if_pos h]
   exact yes h
 · rw[if_neg h]
   exact no h

lemma Meets.mono {Q':α→σ→Prop}(h:Meets rules p Q s)(weaker:∀a t,Q a t → Q' a t):
 Meets rules p Q' s:=by
 induction p generalizing s with
 | ret a=>exact weaker a s h
 | ask e k ih=>exact ⟨h.1,fun r hr=>ih r (h.2 r hr)⟩

lemma Avoids.meets {bad:E→Prop}(h:Avoids bad p)
 (free:∀e,¬bad e → rules.allowed s e ∧ ∀r,rules.after s e r=s)(post:∀a,Q a s):
 Meets rules p Q s:=by
 induction p with
 | ret a=>exact post a
 | ask e k ih=>
  refine ⟨(free e h.1).1,fun r _=>?_⟩
  rw[(free e h.1).2 r]
  exact ih r (h.2 r)

end Pintos.Interaction
