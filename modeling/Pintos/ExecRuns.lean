import Mathlib.Data.List.Basic

/-! Finite runs of a partial step function. Every action of a run may be
required to meet a guard in the state in which it is taken; a run without a
requirement uses the guard that always holds. -/
namespace Pintos.ExecRuns

variable {σ α:Type}

inductive Runs (next:σ→α→Option σ)(guard:σ→α→Prop):σ→List α→σ→Prop where
 | nil (s:σ):Runs next guard s [] s
 | cons {s u v:σ} {a:α} {as:List α} (meets:guard s a) (head:next s a=some u)
   (tail:Runs next guard u as v):Runs next guard s (a::as) v

def Always (_:σ)(_:α):Prop:=True
instance (s:σ)(a:α):Decidable (Always s a):=.isTrue trivial
def exec (next:σ→α→Option σ)(guard:σ→α→Prop)[∀s a,Decidable (guard s a)]:σ→List α→Option σ
 | s,[]=>some s
 | s,a::as=>if guard s a then (next s a).bind (fun u=>exec next guard u as) else none

variable {next:σ→α→Option σ}{guard:σ→α→Prop}

lemma Runs.append {s u v:σ}{as bs:List α}(h:Runs next guard s as u)
 (h':Runs next guard u bs v):Runs next guard s (as++bs) v:=by
 induction h with
 | nil _=>exact h'
 | cons meets head _ ih=>exact .cons meets head (ih h')

lemma Runs.snoc {s u v:σ}{as:List α}{a:α}(h:Runs next guard s as u)
 (meets:guard u a)(last:next u a=some v):Runs next guard s (as++[a]) v:=
 h.append (.cons meets last (.nil v))

lemma Runs.invariant {I:σ→Prop}(keep:∀s a u,I s → guard s a → next s a=some u → I u)
 {s u:σ}{as:List α}(h:Runs next guard s as u)(hs:I s):I u:=by
 induction h with
 | nil _=>exact hs
 | cons meets head _ ih=>exact ih (keep _ _ _ hs meets head)

lemma Runs.mono {guard':σ→α→Prop}(weaker:∀s a,guard s a → guard' s a)
 {s u:σ}{as:List α}(h:Runs next guard s as u):Runs next guard' s as u:=by
 induction h with
 | nil s=>exact .nil s
 | cons meets head _ ih=>exact .cons (weaker _ _ meets) head ih

lemma Runs.strengthen {guard':σ→α→Prop}{I:σ→Prop}(keep:∀s a u,I s → guard s a → next s a=some u → I u)
 (meets':∀s a,I s → guard s a → guard' s a){s u:σ}{as:List α}
 (h:Runs next guard s as u)(hs:I s):Runs next guard' s as u:=by
 induction h with
 | nil s=>exact .nil s
 | cons meets head _ ih=>
  exact .cons (meets' _ _ hs meets) head (ih (keep _ _ _ hs meets head))

lemma Runs.snoc_induction {motive:List α→σ→Prop}{s u:σ}{as:List α}
 (h:Runs next guard s as u)(start:motive [] s)
 (step:∀bs t a v,Runs next guard s bs t → guard t a → next t a=some v →
  motive bs t → motive (bs++[a]) v):motive as u:=by
 have main:∀bs t cs w,Runs next guard s bs t → motive bs t → Runs next guard t cs w →
   motive (bs++cs) w:=by
  intro bs t cs w before hm after
  induction after generalizing bs with
  | nil _=>simpa using hm
  | @cons t v w a as meets head _ ih=>
   have next:=ih (bs++[a]) (before.snoc meets head) (step bs t a v before meets head hm)
   simpa using next
 simpa using main [] s as u (.nil s) start h

lemma exec_runs [∀s a,Decidable (guard s a)]{s u:σ}{as:List α}
 (h:exec next guard s as=some u):Runs next guard s as u:=by
 induction as generalizing s with
 | nil=>
  obtain rfl:s=u:=by simpa[exec] using h
  exact .nil s
 | cons a as ih=>
  unfold exec at h
  split at h
  · obtain ⟨t,ht,hu⟩:=Option.bind_eq_some_iff.1 h
    exact .cons ‹_› ht (ih hu)
  · cases h

lemma exec_any [∀s a,Decidable (guard s a)]{s:σ}{as:List α}{test:σ→Bool}
 (h:(exec next guard s as).any test=true):
 ∃u,Runs next guard s as u ∧ test u=true:=by
 cases he:exec next guard s as with
 | none=>simp[he] at h
 | some u=>exact ⟨u,exec_runs he,by simpa[he] using h⟩

end Pintos.ExecRuns
