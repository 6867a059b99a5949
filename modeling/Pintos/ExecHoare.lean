import Mathlib.Tactic.Common

/-! Commands on a state that may stop with a fault, and rules for what holds
when they return. The faults a command may stop with are part of every
assertion: with `fun _ => False` it returns, with `fun _ => True` nothing is
said about whether it does. -/
namespace Pintos.ExecHoare

abbrev Exec (ε σ α:Type):=StateT σ (Except ε) α

variable {ε σ α β:Type}

/-- From `s` the command `m` returns with `Q`, or stops with a fault in `E`. -/
def Holds (m:Exec ε σ α)(s:σ)(Q:α→σ→Prop)(E:ε→Prop):Prop:=
 match m.run s with
 | .ok (a,t)=>Q a t
 | .error e=>E e

def result (m:Exec ε σ α)(s:σ):Option (α×σ):=(m.run s).toOption
def NoFault (_:ε):Prop:=False
def AnyFault (_:ε):Prop:=True

section
variable {m:Exec ε σ α}{f:α→Exec ε σ β}{s:σ}{Q:α→σ→Prop}{E:ε→Prop}{a:α}
 {R:PUnit→σ→Prop}{Q':α→σ→Prop}

@[simp] lemma holds_pure:Holds (pure a) s Q E ↔ Q a s:=Iff.rfl
@[simp] lemma holds_throw {e:ε}:Holds (throw e:Exec ε σ α) s Q E ↔ E e:=Iff.rfl
@[simp] lemma holds_get {R:σ→σ→Prop}:Holds (get:Exec ε σ σ) s R E ↔ R s s:=Iff.rfl
@[simp] lemma holds_set {u:σ}:Holds (set u:Exec ε σ PUnit) s R E ↔ R ⟨⟩ u:=Iff.rfl
@[simp] lemma holds_modify {g:σ→σ}:Holds (modify g:Exec ε σ PUnit) s R E ↔ R ⟨⟩ (g s):=Iff.rfl

@[simp] lemma holds_bind {R:β→σ→Prop}:
 Holds (m >>= f) s R E ↔ Holds m s (fun a t=>Holds (f a) t R E) E:=by
 unfold Holds
 change (match (m.run s >>= fun p=>(f p.1).run p.2) with
  | .ok (a,t)=>R a t
  | .error e=>E e) ↔ _
 cases m.run s<;>rfl

lemma Holds.mono {F:ε→Prop}(h:Holds m s Q E)(hq:∀a t,Q a t → Q' a t)
 (he:∀e,E e → F e):Holds m s Q' F:=by
 unfold Holds at h ⊢
 split<;>rename_i hr<;>rw[hr] at h
 · exact hq _ _ h
 · exact he _ h

lemma Holds.imp (h:Holds m s Q E)(hq:∀a t,Q a t → Q' a t):Holds m s Q' E:=h.mono hq (fun _ he=>he)
lemma holds_congr (same:∀a t,Q a t ↔ Q' a t):Holds m s Q E ↔ Holds m s Q' E:=
 ⟨fun h=>h.imp fun a t=>(same a t).1,fun h=>h.imp fun a t=>(same a t).2⟩
lemma Holds.any (h:Holds m s Q E):Holds m s Q AnyFault:=h.mono (fun _ _ hq=>hq) (fun _ _=>trivial)
lemma Holds.seq {R:β→σ→Prop}(h:Holds m s Q E)
 (next:∀a t,Q a t → Holds (f a) t R E):Holds (m >>= f) s R E:=
 holds_bind.2 (h.imp next)
lemma holds_of_ok {t:σ}(h:m.run s=.ok (a,t)):Holds m s Q E ↔ Q a t:=by
 unfold Holds
 rw[h]
lemma Holds.ok {t:σ}(h:Holds m s Q E)(hr:m.run s=.ok (a,t)):Q a t:=(holds_of_ok hr).1 h

lemma Holds.returns (h:Holds m s Q NoFault):∃a t,m.run s=.ok (a,t) ∧ Q a t:=by
 unfold Holds at h
 split at h
 · exact ⟨_,_,‹_›,h⟩
 · exact h.elim

lemma holds_value {x:α}(h:Holds m s (fun a t=>a=x ∧ t=s) NoFault):Holds m s Q E ↔ Q x s:=by
 obtain ⟨a,t,hr,rfl,rfl⟩:=h.returns
 exact holds_of_ok hr
lemma result_eq_some {r:α×σ}:result m s=some r ↔ m.run s=.ok r:=by
 unfold result
 cases m.run s<;>simp[Except.toOption]
lemma Holds.result (h:Holds m s Q E){r:α×σ}(hr:result m s=some r):Q r.1 r.2:=
 h.ok (result_eq_some.1 hr)

lemma Holds.and (h:Holds m s Q E)(h':Holds m s Q' AnyFault):
 Holds m s (fun a t=>Q a t ∧ Q' a t) E:=by
 unfold Holds at h h' ⊢
 split<;>rename_i hr<;>simp only[hr] at h h'
 · exact ⟨h,h'⟩
 · exact h

variable {P P':Prop}{I I':σ→Prop}{t:σ}

def Decides (P:Prop)(I:σ→Prop)(ok:Bool)(t:σ):Prop:=(ok=true ↔ P) ∧ (ok=true → I t)
lemma decides_false (h:¬P):Decides P I false t:=⟨⟨nofun,fun p=>absurd p h⟩,nofun⟩
lemma decides_true (h:P)(left:I t):Decides P I true t:=⟨⟨fun _=>h,fun _=>rfl⟩,fun _=>left⟩
lemma Decides.imp {ok:Bool}(h:Decides P I ok t)(same:P ↔ P')(weaker:I t → I' t):
 Decides P' I' ok t:=
 ⟨h.1.trans same,fun yes=>weaker (h.2 yes)⟩

end
variable {τ:Type}{g:σ→τ}{m:Exec ε σ α}{f:α→Exec ε σ β}

lemma holds_trivial (m:Exec ε σ α)(s:σ):Holds m s (fun _ _=>True) AnyFault:=by
 unfold Holds
 split<;>trivial

/-- If the command returns, `g` of the state is what it was. -/
def Keeps (g:σ→τ)(m:Exec ε σ α):Prop:=∀s,Holds m s (fun _ t=>g t=g s) AnyFault

lemma keeps_pure (a:α):Keeps g (pure a:Exec ε σ α):=fun _=>rfl
lemma keeps_throw (e:ε):Keeps g (throw e:Exec ε σ α):=fun _=>trivial
lemma keeps_get:Keeps g (get:Exec ε σ σ):=fun _=>rfl
lemma keeps_bind (hm:Keeps g m)(hf:∀a,Keeps g (f a)):Keeps g (m >>= f):=
 fun s=>(hm s).seq fun a t ht=>(hf a t).imp fun _ _ hu=>hu.trans ht

end Pintos.ExecHoare
