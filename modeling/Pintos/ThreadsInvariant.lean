import Mathlib.Data.List.Nodup
import Pintos.Threads

namespace Pintos.Threads
open ExecRuns Function List

/-- In these stages a thread may be in `sema_down`. -/
def Stage.sleeps:Stage→Bool
 | .body | .allocating _ | .starting=>true
 | _=>false

/-- From these stages `idle_thread` will be stored. -/
def Stage.starts:Stage→Bool
 | .booting | .idleInit=>true
 | _=>false

/-- The threads are those on `all_list`. `r` is the one that runs; there is none
between the change of its status and the end of `schedule`. -/
structure Inv (r:Option ℕ)(k:Kernel):Prop where
 nodup:k.allList.Nodup
 page:∀t∈k.allList,isThread k t ∧ k.free t=false
 initial:k.free k.initialThread=false
 busy:∀t,r=some t → t∈k.allList
 running:∀t∈k.allList,(k.thread t).status=.running ↔ r=some t
 alive:∀t∈k.allList,(k.thread t).status≠.dying
 ready:∀t,t∈k.readyList ↔ t∈k.allList ∧ (k.thread t).status=.ready ∧ k.idleThread≠some t
 readyNodup:k.readyList.Nodup
 waiters:∀s t,t∈(k.sema s).waiters ↔
  t∈k.allList ∧ (k.thread t).status=.blocked ∧ (k.thread t).waiting=some s
 waitersNodup:∀s,(k.sema s).waiters.Nodup
 sleeps:∀t∈k.allList,(k.thread t).waiting≠none → (k.thread t).stage.sleeps=true
 idle:∀i,k.idleThread=some i → i∈k.allList ∧
  ((k.thread i).stage=.idleUp ∨ (k.thread i).stage=.idleLoop)
 making:∀p∈k.allList,∀t,(k.thread p).stage.creates=some t →
  t∈k.allList ∧ (k.thread t).stage=.fresh ∧ (k.thread t).status=.blocked
 alone:∀p∈k.allList,∀q∈k.allList,∀t,(k.thread p).stage.creates=some t →
  (k.thread q).stage.creates=some t → p=q
 boot:k.idleThread=none → ∃i∈k.allList,(k.thread i).stage.starts=true ∧
  (k.thread i).status≠.blocked ∧ ∀t∈k.allList,(k.thread t).stage.starts=true → t=i
 booted:k.idleThread≠none → ∀t∈k.allList,(k.thread t).stage.starts=false
 booting:∀t∈k.allList,(k.thread t).stage=.booting → k.allList=[t] ∧ (k.thread t).status=.running
variable {r r':Option ℕ}{k k':Kernel}{p:ℕ}{v:Thread}

/-- `k'` is `k` with `v` for the thread `p`, and possibly other queues. -/
structure Changes (k k':Kernel)(p:ℕ)(v:Thread):Prop where
 thread:k'.thread=update k.thread p v
 free:k'.free=k.free
 allList:k'.allList=k.allList
 idleThread:k'.idleThread=k.idleThread
 initialThread:k'.initialThread=k.initialThread

lemma Changes.self (h:Changes k k' p v):k'.thread p=v:=by
 rw[h.thread,update_self]
lemma Changes.other (h:Changes k k' p v){t:ℕ}(ht:t≠p):k'.thread t=k.thread t:=by
 rw[h.thread,update_of_ne ht]

lemma Changes.all (h:Changes k k' p v){P:ℕ→Thread→Prop}(own:P p v)
 (others:∀t,t≠p → P t (k.thread t))(t:ℕ):P t (k'.thread t):=by
 rw[h.thread]
 by_cases ht:t=p
 · subst ht
   rw[update_self]
   exact own
 · rw[update_of_ne ht]
   exact others t ht

lemma Changes.stage (h:Changes k k' p v)(stage:v.stage=(k.thread p).stage)(t:ℕ):
 (k'.thread t).stage=(k.thread t).stage:=
 h.all (P:=fun t w=>w.stage=(k.thread t).stage) stage (fun _ _=>rfl) t

/-- The queues of `k'` are those of `k` with `p` where `v` belongs. -/
structure Requeues (k k':Kernel)(p:ℕ)(v:Thread):Prop where
 ready:∀t,t∈k'.readyList ↔ if t=p then v.status=.ready ∧ k.idleThread≠some p else t∈k.readyList
 readyNodup:k'.readyList.Nodup
 waiters:∀s t,t∈(k'.sema s).waiters ↔
  if t=p then v.status=.blocked ∧ v.waiting=some s else t∈(k.sema s).waiters
 waitersNodup:∀s,(k'.sema s).waiters.Nodup

lemma Inv.change (h:Inv r k)(hp:p∈k.allList)(c:Changes k k' p v)
 (q:Requeues k k' p v)(magic:v.magic=threadMagic)(alive:v.status≠.dying)
 (own:v.status=.running ↔ r'=some p)(others:∀t,t≠p → (r'=some t ↔ r=some t))
 (stage:v.stage=(k.thread p).stage)(still:v.waiting≠none → v.stage.sleeps=true)
 (made:v.status=.blocked ∨ ∀q∈k.allList,(k.thread q).stage.creates≠some p)
 (boot:v.stage.starts=true → v.status≠.blocked ∧
  (v.stage=.booting → v.status=.running)):Inv r' k':=by
 have stages:=c.stage stage
 have all:=c.allList
 refine ⟨all▸h.nodup,?_,?_,?_,?_,?_,?_,q.readyNodup,?_,q.waitersNodup,?_,?_,?_,?_,?_,?_,?_⟩
 · rw[all,c.free]
   exact c.all (P:=fun t w=>t∈k.allList → w.magic=threadMagic ∧ k.free t=false)
    (fun hm=>⟨magic,(h.page p hm).2⟩) (fun t _=>h.page t)
 · rw[c.free,c.initialThread]
   exact h.initial
 · intro t ht
   rw[all]
   by_cases htp:t=p
   · exact htp▸hp
   · exact h.busy t ((others t htp).1 ht)
 · rw[all]
   refine c.all (P:=fun t w=>t∈k.allList → (w.status=.running ↔ r'=some t))
    (fun _=>own) (fun t ht hm=>?_)
   rw[others t ht]
   exact h.running t hm
 · rw[all]
   exact c.all (P:=fun t w=>t∈k.allList → w.status≠.dying) (fun _=>alive) (fun t _=>h.alive t)
 · rw[all,c.idleThread]
   refine c.all (P:=fun t w=>t∈k'.readyList ↔
    t∈k.allList ∧ w.status=.ready ∧ k.idleThread≠some t) ?_ (fun t ht=>?_)
   · rw[q.ready,if_pos rfl]
     exact ⟨fun hv=>⟨hp,hv⟩,fun hv=>hv.2⟩
   · rw[q.ready,if_neg ht]
     exact h.ready t
 · intro s
   rw[all]
   refine c.all (P:=fun t w=>t∈(k'.sema s).waiters ↔
    t∈k.allList ∧ w.status=.blocked ∧ w.waiting=some s) ?_ (fun t ht=>?_)
   · rw[q.waiters,if_pos rfl]
     exact ⟨fun hv=>⟨hp,hv⟩,fun hv=>hv.2⟩
   · rw[q.waiters,if_neg ht]
     exact h.waiters s t
 · rw[all]
   exact c.all (P:=fun t w=>t∈k.allList → w.waiting≠none → w.stage.sleeps=true)
    (fun _=>still) (fun t _=>h.sleeps t)
 · intro i hi
   rw[all,stages]
   exact h.idle i (c.idleThread▸hi)
 · intro m hm t ht
   rw[all] at hm ⊢
   rw[stages] at ht ⊢
   obtain ⟨htl,hts,htb⟩:=h.making m hm t ht
   refine ⟨htl,hts,c.all (P:=fun u w=>u=t → w.status=.blocked) ?_ ?_ t rfl⟩
   · rintro rfl
     exact made.resolve_right fun hn=>hn m hm ht
   · rintro u - rfl
     exact htb
 · simp only[all,stages]
   exact h.alone
 · intro hn
   rw[c.idleThread] at hn
   obtain ⟨i,hi,hs,hb,one⟩:=h.boot hn
   simp only[all,stages]
   refine ⟨i,hi,hs,c.all (P:=fun t w=>t=i → w.status≠.blocked) ?_ ?_ i rfl,one⟩
   · rintro rfl
     exact (boot (stage▸hs)).1
   · rintro t - rfl
     exact hb
 · simp only[all,stages,c.idleThread]
   exact h.booted
 · intro t ht hs
   rw[all] at ht ⊢
   rw[stages] at hs
   obtain ⟨one,run⟩:=h.booting t ht hs
   refine ⟨one,?_⟩
   obtain rfl:p=t:=by simpa[one] using hp
   rw[c.self]
   refine (boot ?_).2 (stage.trans hs)
   rw[stage,hs]
   rfl

def Off (k:Kernel)(p:ℕ):Prop:=p∉k.readyList ∧ ∀s,p∉(k.sema s).waiters

lemma Inv.off (h:Inv r k)(hr:(k.thread p).status≠.ready ∨ k.idleThread=some p)
 (hb:(k.thread p).status≠.blocked ∨ (k.thread p).waiting=none):Off k p:=by
 refine ⟨fun hm=>?_,fun s hm=>?_⟩
 · obtain ⟨-,ready,idle⟩:=(h.ready p).1 hm
   exact hr.elim (fun hn=>hn ready) idle
 · obtain ⟨-,blocked,waiting⟩:=(h.waiters s p).1 hm
   rcases hb with hn|hn
   · exact hn blocked
   · rw[hn] at waiting
     cases waiting

lemma Requeues.stay (h:Inv r k)(off:Off k p)
 (hr:v.status≠.ready ∨ k.idleThread=some p)(hb:v.status≠.blocked ∨ v.waiting=none)
 (ready:k'.readyList=k.readyList)(sema:∀s,(k'.sema s).waiters=(k.sema s).waiters):
 Requeues k k' p v:=by
 refine ⟨fun t=>?_,ready▸h.readyNodup,fun s t=>?_,fun s=>sema s▸h.waitersNodup s⟩
 · rw[ready]
   split
   · rename_i ht
     simp only[ht,off.1,false_iff,not_and,not_not]
     exact fun hv=>hr.resolve_left fun hn=>hn hv
   · rfl
 · rw[sema]
   split
   · rename_i ht
     simp only[ht,off.2 s,false_iff,not_and]
     intro hv hw
     rw[hb.resolve_left fun hn=>hn hv] at hw
     cases hw
   · rfl

lemma Requeues.keep (h:Inv r k)(hp:p∈k.allList)(status:v.status=(k.thread p).status)
 (waiting:v.waiting=(k.thread p).waiting)(ready:k'.readyList=k.readyList)
 (sema:∀s,(k'.sema s).waiters=(k.sema s).waiters):Requeues k k' p v:=by
 refine ⟨fun t=>?_,ready▸h.readyNodup,fun s t=>?_,fun s=>sema s▸h.waitersNodup s⟩
 · rw[ready]
   split
   · rename_i ht
     rw[ht,h.ready,status]
     exact ⟨fun hv=>hv.2,fun hv=>⟨hp,hv⟩⟩
   · rfl
 · rw[sema]
   split
   · rename_i ht
     rw[ht,h.waiters,status,waiting]
     exact ⟨fun hv=>hv.2,fun hv=>⟨hp,hv⟩⟩
   · rfl

lemma Requeues.push (h:Inv r k)(off:Off k p)(hr:v.status=.ready)
 (hi:k.idleThread≠some p)(ready:k'.readyList=k.readyList++[p])
 (sema:∀s,(k'.sema s).waiters=(k.sema s).waiters):Requeues k k' p v:=by
 refine ⟨fun t=>?_,?_,fun s t=>?_,fun s=>sema s▸h.waitersNodup s⟩
 · rw[ready,mem_append,mem_singleton]
   split
   · rename_i ht
     simp[ht,hr,hi]
   · rename_i ht
     simp[ht]
 · rw[ready,←concat_eq_append]
   exact h.readyNodup.concat off.1
 · rw[sema]
   split
   · rename_i ht
     simp[ht,off.2 s,hr]
   · rfl

lemma Requeues.wait (h:Inv r k)(off:Off k p){s:ℕ}(hb:v.status=.blocked)
 (hw:v.waiting=some s)(ready:k'.readyList=k.readyList)
 (own:(k'.sema s).waiters=(k.sema s).waiters++[p])
 (others:∀u,u≠s → (k'.sema u).waiters=(k.sema u).waiters):Requeues k k' p v:=by
 refine ⟨fun t=>?_,ready▸h.readyNodup,fun u t=>?_,fun u=>?_⟩
 · rw[ready]
   split
   · rename_i ht
     simp[ht,off.1,hb]
   · rfl
 · by_cases hu:u=s
   · subst hu
     rw[own,mem_append,mem_singleton]
     split
     · rename_i ht
       simp[ht,hb,hw]
     · rename_i ht
       simp[ht]
   · rw[others u hu]
     split
     · rename_i ht
       simp[ht,off.2 u,hw,Ne.symm hu]
     · rfl
 · by_cases hu:u=s
   · subst hu
     rw[own,←concat_eq_append]
     exact (h.waitersNodup u).concat (off.2 u)
   · rw[others u hu]
     exact h.waitersNodup u

variable {t s:ℕ}

lemma Inv.status (h:Inv (some p) k):(k.thread p).status=.running:=
 (h.running p (h.busy p rfl)).2 rfl
lemma Inv.off_running (h:Inv (some p) k):Off k p:=
 h.off (.inl (by simp[h.status])) (.inl (by simp[h.status]))
lemma Inv.unmade (h:Inv r k)(hb:(k.thread p).status≠.blocked):
 ∀q∈k.allList,(k.thread q).stage.creates≠some p:=
 fun q hq hc=>hb (h.making q hq p hc).2.2

lemma Inv.setReady (h:Inv (some p) k)(awake:(k.thread p).waiting=none)
 (booted:(k.thread p).stage≠.booting):
 Inv none ((if k.idleThread=some p then k else k.pushReady p).setStatus p .ready):=by
 refine h.change (v:={k.thread p with status:=.ready}) (h.busy p rfl) ?_ ?_
  (h.page p (h.busy p rfl)).1 (by simp) (by simp) (fun t ht=>by simpa using Ne.symm ht) rfl
  (fun hw=>absurd awake hw) (.inr (h.unmade (by simp[h.status])))
  (fun _=>⟨by simp,fun hb=>absurd hb booted⟩)
 · split<;>exact ⟨rfl,rfl,rfl,rfl,rfl⟩
 · split
   · exact .stay h h.off_running (.inr ‹_›) (.inl (by simp)) rfl (fun _=>rfl)
   · exact .push h h.off_running rfl ‹_› rfl (fun _=>rfl)

lemma Inv.setBlocked (h:Inv (some p) k)(awake:(k.thread p).waiting=none)
 (started:(k.thread p).stage.starts=false):Inv none (k.setStatus p .blocked):=by
 refine h.change (v:={k.thread p with status:=.blocked}) (h.busy p rfl)
  ⟨rfl,rfl,rfl,rfl,rfl⟩ ?_ (h.page p (h.busy p rfl)).1 (by simp) (by simp)
  (fun t ht=>by simpa using Ne.symm ht) rfl (fun hw=>absurd awake hw) (.inl rfl)
  (fun hs=>absurd (hs.symm.trans started) Bool.noConfusion)
 exact .stay h h.off_running (.inl (by simp)) (.inr awake) rfl (fun _=>rfl)

lemma Inv.setWaiting (h:Inv (some p) k)(sleeps:(k.thread p).stage.sleeps=true):
 Inv none (((k.setSema s {k.sema s with waiters:=(k.sema s).waiters++[p]}).setWaiting p
  (some s)).setStatus p .blocked):=by
 have started:(k.thread p).stage.starts=false:=by
  cases hs:(k.thread p).stage<;>simp_all[Stage.sleeps,Stage.starts]
 refine h.change (v:={k.thread p with status:=.blocked,waiting:=some s}) (h.busy p rfl)
  ⟨?_,rfl,rfl,rfl,rfl⟩ ?_ (h.page p (h.busy p rfl)).1 (by simp) (by simp)
  (fun t ht=>by simpa using Ne.symm ht) rfl (fun _=>sleeps) (.inl rfl)
  (fun hs=>absurd (hs.symm.trans started) Bool.noConfusion)
 · simp[Kernel.setStatus,Kernel.setWaiting,Kernel.setThread,Kernel.setSema]
 · exact .wait h h.off_running rfl rfl rfl
    (by simp[Kernel.setStatus,Kernel.setWaiting,Kernel.setThread,Kernel.setSema])
    (fun u hu=>by
     simp[Kernel.setStatus,Kernel.setWaiting,Kernel.setThread,Kernel.setSema,hu])

lemma Inv.setDying (h:Inv (some p) k)(body:(k.thread p).stage=.body)
 (all:k'.allList=k.allList.erase p)
 (other:∀t,t≠p → k'.thread t=k.thread t)(free:k'.free=k.free)
 (initial:k'.initialThread=k.initialThread)(idle:k'.idleThread=k.idleThread)
 (ready:k'.readyList=k.readyList)(sema:k'.sema=k.sema):Inv none k':=by
 have mem:∀t,t∈k'.allList ↔ t≠p ∧ t∈k.allList:=fun t=>by
  rw[all]
  exact h.nodup.mem_erase_iff
 have off:=h.off_running
 refine ⟨all▸h.nodup.erase p,?_,?_,fun t ht=>(by cases ht),?_,?_,?_,
  ready▸h.readyNodup,?_,sema▸h.waitersNodup,?_,?_,?_,?_,?_,?_,?_⟩
 · intro t ht
   obtain ⟨htp,htm⟩:=(mem t).1 ht
   rw[isThread,other t htp,free]
   exact h.page t htm
 · rw[free,initial]
   exact h.initial
 · intro t ht
   obtain ⟨htp,htm⟩:=(mem t).1 ht
   rw[other t htp,h.running t htm]
   simpa using Ne.symm htp
 · intro t ht
   obtain ⟨htp,htm⟩:=(mem t).1 ht
   rw[other t htp]
   exact h.alive t htm
 · intro t
   rw[ready,mem,idle]
   by_cases htp:t=p
   · simp[htp,off.1]
   · rw[other t htp,h.ready]
     simp[htp]
 · intro s t
   rw[sema,mem]
   by_cases htp:t=p
   · simp[htp,off.2 s]
   · rw[other t htp,h.waiters]
     simp[htp]
 · intro t ht
   obtain ⟨htp,htm⟩:=(mem t).1 ht
   rw[other t htp]
   exact h.sleeps t htm
 · intro i hi
   obtain ⟨him,hs⟩:=h.idle i (idle▸hi)
   have hip:i≠p:=by
    rintro rfl
    rw[body] at hs
    simp at hs
   rw[mem,other i hip]
   exact ⟨⟨hip,him⟩,hs⟩
 · intro q hq t ht
   obtain ⟨hqp,hqm⟩:=(mem q).1 hq
   rw[other q hqp] at ht
   obtain ⟨htm,hts,htb⟩:=h.making q hqm t ht
   have htp:t≠p:=by
    rintro rfl
    rw[h.status] at htb
    cases htb
   rw[mem,other t htp]
   exact ⟨⟨htp,htm⟩,hts,htb⟩
 · intro a ha b hb t hat hbt
   obtain ⟨hap,ham⟩:=(mem a).1 ha
   obtain ⟨hbp,hbm⟩:=(mem b).1 hb
   rw[other a hap] at hat
   rw[other b hbp] at hbt
   exact h.alone a ham b hbm t hat hbt
 · intro hn
   obtain ⟨i,him,hs,hb,one⟩:=h.boot (idle▸hn)
   have hip:i≠p:=by
    rintro rfl
    rw[body] at hs
    cases hs
   refine ⟨i,(mem i).2 ⟨hip,him⟩,?_,?_,fun t ht hts=>?_⟩
   · rw[other i hip]
     exact hs
   · rw[other i hip]
     exact hb
   · obtain ⟨htp,htm⟩:=(mem t).1 ht
     rw[other t htp] at hts
     exact one t htm hts
 · intro hn t ht
   obtain ⟨htp,htm⟩:=(mem t).1 ht
   rw[other t htp]
   exact h.booted (idle▸hn) t htm
 · intro t ht hs
   obtain ⟨htp,htm⟩:=(mem t).1 ht
   rw[other t htp] at hs
   have one:=(h.booting t htm hs).1
   have:=h.busy p rfl
   rw[one,mem_singleton] at this
   exact absurd this.symm htp

def chosen (k:Kernel):Option ℕ:=k.readyList.head?.or k.idleThread

lemma Inv.chosen_mem (h:Inv none k)(ht:chosen k=some t):
 t∈k.allList ∧ ∀q∈k.allList,(k.thread q).stage.creates≠some t:=by
 unfold chosen at ht
 cases hl:k.readyList with
 | nil=>
  rw[hl] at ht
  obtain ⟨hm,hs⟩:=h.idle t ht
  refine ⟨hm,fun q hq hc=>?_⟩
  rw[(h.making q hq t hc).2.1] at hs
  simp at hs
 | cons u rest=>
  rw[hl] at ht
  obtain rfl:u=t:=by simpa using ht
  obtain ⟨hm,hr,-⟩:=(h.ready u).1 (by simp[hl])
  exact ⟨hm,h.unmade (by simp[hr])⟩

/-- There is always a thread to run: until the idle thread has stored itself, it
is ready whenever it does not run. -/
lemma Inv.exists_chosen (h:Inv none k):∃t,chosen k=some t:=by
 unfold chosen
 cases hl:k.readyList with
 | cons u rest=>exact ⟨u,rfl⟩
 | nil=>
  cases hi:k.idleThread with
  | some i=>exact ⟨i,rfl⟩
  | none=>
   obtain ⟨i,him,-,hb,-⟩:=h.boot hi
   have hr:(k.thread i).status=.ready:=by
    have running:=(h.running i him).not.2 (by simp)
    have alive:=h.alive i him
    cases hs:(k.thread i).status<;>simp_all
   have:=(h.ready i).2 ⟨him,hr,by simp[hi]⟩
   rw[hl] at this
   cases this

lemma Inv.setRunning (h:Inv none k)(ht:chosen k=some t)
 (thread:k'.thread=update k.thread t {k.thread t with status:=.running})
 (free:k'.free=k.free)(all:k'.allList=k.allList)(idle:k'.idleThread=k.idleThread)
 (initial:k'.initialThread=k.initialThread)(ready:k'.readyList=k.readyList.tail)
 (sema:k'.sema=k.sema):Inv (some t) k':=by
 obtain ⟨hm,made⟩:=h.chosen_mem ht
 refine h.change (v:={k.thread t with status:=.running}) hm ⟨thread,free,all,idle,initial⟩
  ?_ (h.page t hm).1 (by simp) (by simp) (fun u hu=>by simpa using Ne.symm hu) rfl
  (h.sleeps t hm) (.inr made) (fun _=>⟨by simp,fun _=>rfl⟩)
 unfold chosen at ht
 cases hl:k.readyList with
 | nil=>
  rw[hl] at ht
  have asleep:(k.thread t).waiting=none:=by
   by_contra hn
   have:=h.sleeps t hm hn
   obtain ⟨-,hs|hs⟩:=h.idle t ht<;>rw[hs] at this<;>cases this
  exact .stay h (h.off (.inr ht) (.inr asleep)) (.inr ht) (.inl (by simp))
   (by rw[ready,hl];rfl) (fun _=>by rw[sema])
 | cons u rest=>
  rw[hl] at ht
  obtain rfl:u=t:=by simpa using ht
  have nodup:=h.readyNodup
  rw[hl,nodup_cons] at nodup
  rw[hl,tail_cons] at ready
  have hr:=((h.ready u).1 (by simp[hl])).2.1
  refine ⟨fun x=>?_,ready▸nodup.2,fun s x=>?_,sema▸h.waitersNodup⟩
  · rw[ready]
    split
    · rename_i hx
      simp[hx,nodup.1]
    · rename_i hx
      simp[hl,hx]
  · rw[sema]
    split
    · rename_i hx
      rw[hx,h.waiters,hr]
      simp
    · rfl

lemma Inv.wake (h:Inv r k)(hm:t∈k.allList)(blocked:(k.thread t).status=.blocked)
 (idle:k.idleThread≠some t)(made:∀q∈k.allList,(k.thread q).stage.creates≠some t)
 (c:Changes k k' t {k.thread t with status:=.ready})
 (ready:k'.readyList=k.readyList++[t])
 (waiters:∀s u,u∈(k'.sema s).waiters ↔ u≠t ∧ u∈(k.sema s).waiters)
 (waitersNodup:∀s,(k'.sema s).waiters.Nodup):Inv r k':=by
 have still:r≠some t:=fun hr=>by
  rw[(h.running t hm).2 hr] at blocked
  cases blocked
 have off:t∉k.readyList:=fun hr=>by
  rw[((h.ready t).1 hr).2.1] at blocked
  cases blocked
 refine h.change hm c ?_ (h.page t hm).1 (by simp) (by simpa using still) (fun _ _=>Iff.rfl) rfl
  (h.sleeps t hm) (.inr made) (fun _=>⟨by simp,fun hb=>?_⟩)
 · refine ⟨fun u=>?_,?_,fun s u=>?_,waitersNodup⟩
   · rw[ready,mem_append,mem_singleton]
     split
     · rename_i hu
       simp[hu,idle]
     · rename_i hu
       simp[hu]
   · rw[ready,←concat_eq_append]
     exact h.readyNodup.concat off
   · rw[waiters]
     split
     · rename_i hu
       simp[hu]
     · rename_i hu
       simp[hu]
 · have:=(h.booting t hm hb).2
   rw[blocked] at this
   cases this

/-- `t` is new, and only `p` may be making it. -/
def Reserved (k:Kernel)(p t:ℕ):Prop:=
 t∈k.allList ∧ t≠p ∧ (k.thread t).stage=.fresh ∧ (k.thread t).status=.blocked ∧
  ∀q∈k.allList,(k.thread q).stage.creates=some t → q=p

lemma Inv.reserved (h:Inv r k)(hp:p∈k.allList)
 (ht:(k.thread p).stage.creates=some t):Reserved k p t:=by
 obtain ⟨htm,hts,htb⟩:=h.making p hp t ht
 refine ⟨htm,?_,hts,htb,fun q hq hqt=>h.alone q hq p hp t hqt ht⟩
 rintro rfl
 rw[hts] at ht
 cases ht

lemma Inv.setStage (h:Inv r k)(hp:p∈k.allList){b:Stage}
 (made:∀q∈k.allList,(k.thread q).stage.creates≠some p)
 (creates:∀t,b.creates=some t → Reserved k p t)
 (idle:k.idleThread=some p → b=.idleUp ∨ b=.idleLoop)
 (sleeps:(k.thread p).waiting=none ∨ b.sleeps=true)
 (starts:(k.thread p).stage.starts=false ∧ b.starts=false):
 Inv r (k.setStage p b):=by
 have c:Changes k (k.setStage p b) p {k.thread p with stage:=b}:=⟨rfl,rfl,rfl,rfl,rfl⟩
 have makes:∀q t,q∈k.allList → ((k.setStage p b).thread q).stage.creates=some t → Reserved k q t:=
  c.all (P:=fun q w=>∀t,q∈k.allList → w.stage.creates=some t → Reserved k q t)
   (fun t _=>creates t) (fun q _ t hq=>h.reserved hq)
 have startsOld:∀t,((k.setStage p b).thread t).stage.starts=(k.thread t).stage.starts:=
  c.all (P:=fun t w=>w.stage.starts=(k.thread t).stage.starts)
   (starts.2.trans starts.1.symm) (fun _ _=>rfl)
 have statusOld:∀t,((k.setStage p b).thread t).status=(k.thread t).status:=
  c.all (P:=fun t w=>w.status=(k.thread t).status) rfl (fun _ _=>rfl)
 have waitingOld:∀t,((k.setStage p b).thread t).waiting=(k.thread t).waiting:=
  c.all (P:=fun t w=>w.waiting=(k.thread t).waiting) rfl (fun _ _=>rfl)
 refine ⟨h.nodup,?_,h.initial,h.busy,?_,?_,?_,h.readyNodup,?_,h.waitersNodup,?_,?_,?_,?_,?_,?_,?_⟩
 · exact c.all (P:=fun t w=>t∈k.allList → w.magic=threadMagic ∧ k.free t=false)
    (h.page p) (fun t _=>h.page t)
 · simp only[statusOld]
   exact h.running
 · simp only[statusOld]
   exact h.alive
 · simp only[statusOld]
   exact h.ready
 · simp only[statusOld,waitingOld]
   exact h.waiters
 · exact c.all (P:=fun t w=>t∈k.allList → w.waiting≠none → w.stage.sleeps=true)
    (fun _ hw=>sleeps.resolve_left hw) (fun t _=>h.sleeps t)
 · exact c.all (P:=fun i w=>k.idleThread=some i → i∈k.allList ∧
    (w.stage=.idleUp ∨ w.stage=.idleLoop)) (fun hi=>⟨hp,idle hi⟩) (fun i _=>h.idle i)
 · intro q hq t ht
   obtain ⟨htm,htq,hts,htb,-⟩:=makes q t hq ht
   refine ⟨htm,c.all (P:=fun u w=>u=t → w.stage=.fresh) ?_ ?_ t rfl,?_⟩
   · rintro rfl
     rw[c.other (Ne.symm htq)] at ht
     exact absurd ht (made q hq)
   · rintro u - rfl
     exact hts
   · rw[statusOld]
     exact htb
 · intro x hx y hy t hxt hyt
   obtain ⟨-,-,-,-,onlyX⟩:=makes x t hx hxt
   obtain ⟨-,-,-,-,onlyY⟩:=makes y t hy hyt
   by_cases hxp:x=p
   · by_cases hyp:y=p
     · rw[hxp,hyp]
     · rw[c.other hyp] at hyt
       exact (onlyX y hy hyt).symm
   · rw[c.other hxp] at hxt
     exact onlyY x hx hxt
 · simp only[startsOld,statusOld]
   exact h.boot
 · simp only[startsOld]
   exact h.booted
 · intro t ht hs
   have:((k.setStage p b).thread t).stage.starts=true:=by rw[hs];rfl
   rw[startsOld] at this
   rw[statusOld]
   refine h.booting t ht (c.all (P:=fun u w=>u=t → w.stage=.booting →
    (k.thread u).stage=.booting) ?_ (fun _ _ _ hb=>hb) t rfl hs)
   rintro rfl hb
   rw[starts.1] at this
   cases this

lemma Inv.initThread (h:Inv r k)(free:k.free t=true)
 (booted:∀u∈k.allList,(k.thread u).stage≠.booting):Inv r (initThread k t):=by
 have fresh:t∉k.allList:=fun ht=>by
  rw[(h.page t ht).2] at free
  cases free
 have mem:∀u,u∈(Threads.initThread k t).allList ↔ u∈k.allList ∨ u=t:=fun u=>by
  simp[Threads.initThread]
 have own:(Threads.initThread k t).thread t=⟨0,.blocked,threadMagic,.fresh,none⟩:=update_self ..
 have apart:∀u,u∈k.allList → u≠t:=by
  rintro u hu rfl
  exact fresh hu
 have other:∀u,u∈k.allList → (Threads.initThread k t).thread u=k.thread u:=fun u hu=>
  update_of_ne (apart u hu) _ _
 have off:Off k t:=⟨fun hm=>fresh ((h.ready t).1 hm).1,fun s hm=>fresh ((h.waiters s t).1 hm).1⟩
 refine ⟨?_,?_,?_,?_,?_,?_,?_,h.readyNodup,?_,h.waitersNodup,?_,?_,?_,?_,?_,?_,?_⟩
 · change (k.allList++[t]).Nodup
   rw[←concat_eq_append]
   exact h.nodup.concat fresh
 · intro u hu
   rcases (mem u).1 hu with hu|rfl
   · refine ⟨?_,?_⟩
     · rw[isThread,other u hu]
       exact (h.page u hu).1
     · change update k.free t false u=false
       rw[update_of_ne (apart u hu)]
       exact (h.page u hu).2
   · exact ⟨by rw[isThread,own],update_self ..⟩
 · change update k.free t false k.initialThread=false
   by_cases hi:k.initialThread=t
   · rw[hi,update_self]
   · rw[update_of_ne hi]
     exact h.initial
 · exact fun u hu=>(mem u).2 (.inl (h.busy u hu))
 · intro u hu
   rcases (mem u).1 hu with hu|rfl
   · rw[other u hu]
     exact h.running u hu
   · rw[own]
     refine ⟨fun hr=>(by cases hr),fun hr=>absurd (h.busy u hr) fresh⟩
 · intro u hu
   rcases (mem u).1 hu with hu|rfl
   · rw[other u hu]
     exact h.alive u hu
   · rw[own]
     simp
 · intro u
   change u∈k.readyList ↔ _
   rw[mem]
   by_cases hut:u=t
   · subst hut
     simp[off.1,own]
   · by_cases hu:u∈k.allList
     · rw[other u hu,h.ready]
       simp[hut,Threads.initThread,Kernel.setThread]
     · simp[hu,hut,h.ready]
 · intro s u
   change u∈(k.sema s).waiters ↔ _
   rw[mem]
   by_cases hut:u=t
   · subst hut
     simp[off.2 s,own]
   · by_cases hu:u∈k.allList
     · rw[other u hu,h.waiters]
       simp[hut]
     · simp[hu,hut,h.waiters]
 · intro u hu
   rcases (mem u).1 hu with hu|rfl
   · rw[other u hu]
     exact h.sleeps u hu
   · rw[own]
     simp
 · intro i hi
   obtain ⟨him,hs⟩:=h.idle i hi
   rw[mem,other i him]
   exact ⟨.inl him,hs⟩
 · intro q hq u hqu
   rcases (mem q).1 hq with hq|rfl
   · rw[other q hq] at hqu
     obtain ⟨hum,hus,hub⟩:=h.making q hq u hqu
     rw[mem,other u hum]
     exact ⟨.inl hum,hus,hub⟩
   · rw[own] at hqu
     cases hqu
 · intro x hx y hy u hxu hyu
   rcases (mem x).1 hx with hx|rfl
   · rcases (mem y).1 hy with hy|rfl
     · rw[other x hx] at hxu
       rw[other y hy] at hyu
       exact h.alone x hx y hy u hxu hyu
     · rw[own] at hyu
       cases hyu
   · rw[own] at hxu
     cases hxu
 · intro hn
   obtain ⟨i,him,hs,hb,one⟩:=h.boot hn
   refine ⟨i,(mem i).2 (.inl him),?_,?_,fun u hu hus=>?_⟩
   · rw[other i him]
     exact hs
   · rw[other i him]
     exact hb
   · rcases (mem u).1 hu with hu|rfl
     · rw[other u hu] at hus
       exact one u hu hus
     · rw[own] at hus
       cases hus
 · intro hn u hu
   rcases (mem u).1 hu with hu|rfl
   · rw[other u hu]
     exact h.booted hn u hu
   · rw[own]
     rfl
 · intro u hu hs
   rcases (mem u).1 hu with hu|rfl
   · rw[other u hu] at hs
     exact absurd hs (booted u hu)
   · rw[own] at hs
     cases hs

end Pintos.Threads
