import Mathlib.Data.List.MinMax
import Pintos.CacheTransparent

namespace Pintos.Cache
open ExecHoare ExecRuns HashTable Function List Option

/-- The sector a call accesses; a lookup accesses one only if it is a hit. -/
def Op.accessed (d:Device):Op→Option ℕ
 | .get s=>if (d.cached s).isSome then some s else none
 | .fill s | .write s _=>some s
 | .evict=>none

/-- The device with the history an observer keeps: for each sector the number
of the call that accessed it last. -/
structure Traced where
 dev:Device
 last:ℕ→ℕ
 now:ℕ

def Traced.next (t:Traced)(op:Op):Option Traced:=
 (Cache.next t.dev op).map fun d=>
  {dev:=d
   last:=match op.accessed t.dev with
    | some s=>update t.last s t.now
    | none=>t.last
   now:=t.now+1}

def Traced.OnMiss (t:Traced)(op:Op):Prop:=Cache.OnMiss t.dev op
instance (t:Traced)(op:Op):Decidable (t.OnMiss op):=
 inferInstanceAs (Decidable (Cache.OnMiss t.dev op))

structure Stamped (d d':Device)(accessed:Option ℕ):Prop where
 ticks:d.ticks≤d'.ticks
 own:∀s,accessed=some s → ∃b n,d'.cached s=some b ∧ b.lastAccess=d.clock n ∧ d.ticks≤n ∧ n<d'.ticks
 others:∀t b,accessed≠some t → d'.cached t=some b → d.cached t=some b

variable {d d':Device}{v b:SectorBlock}

lemma Evicts.kept (h:Evicts d d' v){t:ℕ}(ht:d'.cached t=some b):d.cached t=some b:=by
 rw[h.blocks,update_apply] at ht
 split at ht
 · cases ht
 · exact ht

lemma MadeRoom.kept (h:MadeRoom d d'){t:ℕ}(ht:d'.cached t=some b):d.cached t=some b:=by
 rcases h with ⟨-,rfl⟩|⟨-,v,ev⟩
 · exact ht
 · exact ev.kept ht

variable {s:ℕ}

lemma Obtains.stamped (h:Obtains d d' s b):Stamped d d' (some s):=by
 have ticks:=h.sameDevice.2
 refine ⟨by omega,?_,?_⟩
 · intro s' hs
   obtain rfl:=some.inj hs
   refine ⟨b,d.ticks,h.cached,?_,le_refl _,by omega⟩
   rcases h with ⟨b₀,-,rfl,-⟩|⟨-,d₁,fill⟩
   · rfl
   · rw[fill.block]
 · intro t c ht hc
   have hts:t≠s:=fun he=>ht (congrArg some he.symm)
   rcases h with ⟨b₀,-,-,blocks,-⟩|⟨-,d₁,fill⟩
   · rwa[blocks,update_of_ne hts] at hc
   · rw[fill.blocks,update_of_ne hts] at hc
     exact fill.room.kept hc

lemma Writes.stamped {d₂:Device}{buffer:Sector}(h:Writes d d' s buffer d₂ b):
 Stamped d d' (some s):=by
 have ticks:=h.ticks
 refine ⟨by omega,?_,?_⟩
 · intro s' hs
   obtain rfl:=some.inj hs
   exact ⟨_,d.ticks+1,by rw[h.blocks,update_self],rfl,by omega,by omega⟩
 · intro t c ht hc
   have hts:t≠s:=fun he=>ht (congrArg some he.symm)
   rw[h.blocks,update_of_ne hts] at hc
   exact h.obtained.stamped.others t c ht hc

variable {op:Op}

lemma call_stamped (inv:Inv d)(miss:OnMiss d op)(step:next d op=some d'):
 Stamped d d' (op.accessed d):=by
 cases op with
 | get s=>
  obtain ⟨-,⟨hn,rfl⟩|⟨hit,b,h⟩⟩:=next_get inv step
  · simp only[Op.accessed,hn]
    exact ⟨le_refl _,by simp,fun t b _ h=>h⟩
  · simp only[Op.accessed,hit]
    exact h.stamped
 | fill s=>
  obtain ⟨-,b,d₁,fill⟩:=next_fill inv (miss s rfl) step
  exact (fill.obtains (miss s rfl)).stamped
 | write s buffer=>
  obtain ⟨-,d₂,b,writes⟩:=next_write inv step
  exact writes.stamped
 | evict=>
  obtain ⟨-,v,ev⟩:=next_evict inv step
  exact ⟨ev.ticks.ge,by simp[Op.accessed],fun t b _ h=>ev.kept h⟩

/-- Time stamps never contradict the history. -/
structure Timed (t:Traced):Prop extends Inv t.dev where
 mono:Monotone t.dev.clock
 past:∀s b,t.dev.cached s=some b → t.last s<t.now
 stamp:∀s b,t.dev.cached s=some b → b.lastAccess≤t.dev.clock t.dev.ticks
 injective:∀s b s' b',t.dev.cached s=some b → t.dev.cached s'=some b' → t.last s=t.last s' → s=s'
 ordered:∀s b s' b',t.dev.cached s=some b → t.dev.cached s'=some b' →
  t.last s<t.last s' → b.lastAccess≤b'.lastAccess

variable {t:Traced}

/-- After a call, a cached sector is the one just accessed, or was cached before
and is neither newer in the history nor changed. -/
lemma Timed.origin {u:Traced}(h:Timed t)(miss:t.OnMiss op)(step:t.next op=some u)
 (hs:u.dev.cached s=some b):
 (u.last s=t.now ∧ op.accessed t.dev=some s ∧ t.dev.clock t.dev.ticks≤b.lastAccess) ∨
  (u.last s=t.last s ∧ op.accessed t.dev≠some s ∧ t.dev.cached s=some b):=by
 obtain ⟨d,hd,rfl⟩:=map_eq_some_iff.1 step
 have stamped:=call_stamped h.toInv miss hd
 by_cases ha:op.accessed t.dev=some s
 · left
   obtain ⟨c,n,hc,hstamp,hn,-⟩:=stamped.own s ha
   obtain rfl:c=b:=some.inj (hc.symm.trans hs)
   refine ⟨by simp[ha],ha,?_⟩
   rw[hstamp]
   exact h.mono hn
 · right
   refine ⟨?_,ha,stamped.others s b ha hs⟩
   cases hacc:op.accessed t.dev with
   | none=>rfl
   | some a=>
    have hne:s≠a:=fun he=>ha (by rw[hacc,he])
    simp[hne]

lemma Timed.next {u:Traced}(h:Timed t)(miss:t.OnMiss op)(step:t.next op=some u):Timed u:=by
 have origin:∀ {s b},u.dev.cached s=some b → _:=fun hs=>h.origin miss step hs
 obtain ⟨d,hd,rfl⟩:=map_eq_some_iff.1 step
 obtain ⟨inv',same,-⟩:=call_cells h.toInv miss hd
 have stamped:=call_stamped h.toInv miss hd
 have later:t.dev.clock t.dev.ticks≤d.clock d.ticks:=by
  rw[same.clock]
  exact h.mono stamped.ticks
 refine ⟨inv',by rw[same.clock];exact h.mono,?_,?_,?_,?_⟩
 · intro s b hs
   change _<t.now+1
   rcases origin hs with ⟨hl,-⟩|⟨hl,-,hb⟩
   · omega
   · have:=h.past s b hb
     omega
 · intro s b hs
   rcases origin hs with ⟨-,ha,-⟩|⟨-,-,hb⟩
   · obtain ⟨c,n,hc,hstamp,-,hn⟩:=stamped.own s ha
     obtain rfl:c=b:=some.inj (hc.symm.trans hs)
     rw[hstamp,same.clock]
     exact h.mono hn.le
   · exact (h.stamp s b hb).trans later
 · intro s b s' b' hs hs' he
   rcases origin hs with ⟨hl,ha,-⟩|⟨hl,-,hb⟩<;>rcases origin hs' with ⟨hl',ha',-⟩ | ⟨hl',-,hb'⟩
   · exact some.inj (ha.symm.trans ha')
   · have:=h.past s' b' hb'
     omega
   · have:=h.past s b hb
     omega
   · exact h.injective s b s' b' hb hb' (by omega)
 · intro s b s' b' hs hs' hlt
   rcases origin hs with ⟨hl,-,-⟩|⟨hl,-,hb⟩ <;>
    rcases origin hs' with ⟨hl',-,hstamp⟩|⟨hl',-,hb'⟩
   · omega
   · have:=h.past s' b' hb'
     omega
   · exact (h.stamp s b hb).trans hstamp
   · exact h.ordered s b s' b' hb hb' (by omega)

/-- `s` is cached, and every other cached sector was accessed after it. -/
def IsLru (t:Traced)(s:ℕ):Prop:=
 (t.dev.cached s).isSome ∧ ∀s',(t.dev.cached s').isSome → s'≠s → t.last s<t.last s'

/-- In the order of the iterator the least recently used block is the first one
with its time stamp. -/
def Untied (t:Traced):Prop:=
 ∀b∈t.dev.cache.elems,IsLru t b.sector →
  t.dev.cache.elems.find? (fun c=>c.lastAccess=b.lastAccess)=some b

def Dropped (d d':Device)(s:ℕ):Prop:=(d.cached s).isSome ∧ d'.cached s=none

lemma IsLru.unique {s':ℕ}(h:IsLru t s)(h':IsLru t s'):s=s':=by
 by_contra hne
 have:=h.2 s' h'.1 (Ne.symm hne)
 have:=h'.2 s h.1 hne
 omega

lemma exists_least {α:Type}(f:α→ℕ){l:List α}(h:l≠[]):∃a∈l,∀b∈l,f a≤f b:=by
 obtain ⟨a,least⟩:=ne_none_iff_exists'.1 (mt (argmin_eq_none (f:=f)).1 h)
 exact ⟨a,argmin_mem least,fun _ hb=>le_of_mem_argmin hb least⟩

lemma Timed.exists_lru (h:Timed t)(nonempty:t.dev.cache.elems≠[]):
 ∃b∈t.dev.cache.elems,IsLru t b.sector:=by
 obtain ⟨b,hb,least⟩:=exists_least (fun b=>t.last b.sector) nonempty
 have hbc:=cached_self h.wf hb
 refine ⟨b,hb,by rw[hbc];rfl,fun s hs hne=>?_⟩
 obtain ⟨c,hc⟩:=isSome_iff_exists.1 hs
 obtain ⟨hm,rfl⟩:=(cached_eq_some h.wf).1 hc
 have hle:=least c hm
 have hlast:t.last b.sector≠t.last c.sector:=fun he=>
  hne (h.injective _ _ _ _ hbc hc he).symm
 omega

lemma Timed.lru_least (h:Timed t){c:SectorBlock}(hb:b∈t.dev.cache.elems)
 (lru:IsLru t b.sector)(hc:c∈t.dev.cache.elems):b.lastAccess≤c.lastAccess:=by
 have hbc:=cached_self h.wf hb
 have hcc:=cached_self h.wf hc
 by_cases he:c.sector=b.sector
 · obtain rfl:b=c:=by
    rw[he] at hcc
    exact some.inj (hbc.symm.trans hcc)
   exact le_refl _
 · exact h.ordered _ _ _ _ hbc hcc (lru.2 c.sector (by rw[hcc];rfl) he)

lemma evictCandidate_find {h:Hash SectorBlock}(hv:evictCandidate h=some v):
 h.elems.find? (fun c=>c.lastAccess=v.lastAccess)=some v:=by
 obtain ⟨before,after,hl,hb,-⟩:=evictCandidate_eq_some hv
 have hnone:before.find? (fun c=>decide (c.lastAccess=v.lastAccess))=none:=by
  apply find?_eq_none.2
  intro c hc
  have:=hb c hc
  simp only[decide_eq_true_eq]
  omega
 rw[hl,find?_append,hnone]
 simp

lemma Timed.candidate_lru_iff (h:Timed t)(hv:evictCandidate t.dev.cache=some v):
 IsLru t v.sector ↔ Untied t:=by
 have hm:=evictCandidate_mem hv
 have first:=evictCandidate_find hv
 constructor
 · intro lru b hb lru'
   obtain rfl:v=b:=by
    have hvc:=cached_self h.wf hm
    rw[lru.unique lru',cached_self h.wf hb] at hvc
    exact (some.inj hvc).symm
   exact first
 · intro untied
   obtain ⟨b,hb,lru⟩:=h.exists_lru (ne_nil_of_mem hm)
   obtain ⟨before,after,hl,hbefore,hafter⟩:=evictCandidate_eq_some hv
   have hbv:b.lastAccess≤v.lastAccess:=h.lru_least hb lru hm
   have hvb:v.lastAccess≤b.lastAccess:=by
    rw[hl] at hb
    rcases mem_append.1 hb with hb|hb
    · exact (hbefore b hb).le
    · rcases mem_cons.1 hb with rfl|hb
      · exact le_refl _
      · exact hafter b hb
   have hf:=untied b hb lru
   rw[le_antisymm hbv hvb,first] at hf
   obtain rfl:=some.inj hf
   exact lru

def Op.FillsSector (op:Op)(s:ℕ):Prop:=op=.fill s ∨ ∃buffer,op=.write s buffer

lemma filled (inv:Inv d)(fills:op.FillsSector s)(miss:d.cached s=none)(step:next d op=some d'):
 ∃b d₁,MadeRoom d d₁ ∧ d'.cached=update d₁.cached s (some b):=by
 rcases fills with rfl|⟨buffer,rfl⟩
 · obtain ⟨-,b,d₁,fill⟩:=next_fill inv miss step
   exact ⟨b,d₁,fill.room,fill.blocks⟩
 · obtain ⟨-,d₂,b,writes⟩:=next_write inv step
   rcases writes.obtained with ⟨b₀,hit,-⟩|⟨-,d₁,fill⟩
   · rw[miss] at hit
     cases hit
   · have blocks:=writes.blocks
     rw[fill.blocks,update_idem] at blocks
     exact ⟨_,d₁,fill.room,blocks⟩

lemma dropped_iff (inv:Inv d)(fills:op.FillsSector s)(miss:d.cached s=none)
 (full:64≤hashSize d.cache)(step:next d op=some d'):
 ∃v,evictCandidate d.cache=some v ∧ ∀w,Dropped d d' w ↔ w=v.sector:=by
 obtain ⟨b,d₁,room,blocks⟩:=filled inv fills miss step
 rcases room with ⟨hlt,-⟩|⟨-,v,ev⟩
 · omega
 refine ⟨v,ev.candidate,fun w=>?_⟩
 have hv:=cached_self inv.wf (evictCandidate_mem ev.candidate)
 unfold Dropped
 rw[blocks,ev.blocks,update_apply,update_apply]
 constructor
 · rintro ⟨hw,hnone⟩
   by_contra hne
   by_cases hws:w=s
   · rw[hws,miss] at hw
     cases hw
   · rw[if_neg hws,if_neg hne] at hnone
     rw[hnone] at hw
     cases hw
 · rintro rfl
   have hne:v.sector≠s:=by
    intro he
    rw[he,miss] at hv
    cases hv
   rw[if_neg hne,if_pos rfl,hv]
   exact ⟨rfl,rfl⟩

lemma timed_of_empty (empty:t.dev.cache=hashInit)(mono:Monotone t.dev.clock):Timed t:=by
 have h:=coherent_of_empty empty
 have hnone:∀s b,t.dev.cached s≠some b:=by
  intro s b hs
  have hm:=((cached_eq_some h.wf).1 hs).1
  rw[empty] at hm
  simp[hashInit,Hash.elems] at hm
 exact ⟨h.toInv,mono,fun s b hs=>absurd hs (hnone s b),fun s b hs=>absurd hs (hnone s b),
  fun s b _ _ hs=>absurd hs (hnone s b),fun s b _ _ hs=>absurd hs (hnone s b)⟩

lemma Timed.recent_not_lru (h:Timed t)(several:2≤hashSize t.dev.cache){w:ℕ}
 (recent:t.last w+1=t.now):¬IsLru t w:=by
 intro lru
 have hcount:2≤t.dev.cache.elems.length:=by
  rw[←h.wf.count]
  exact several
 obtain ⟨c,hc,hne⟩:∃c∈t.dev.cache.elems,c.sector≠w:=by
  by_contra hall
  push Not at hall
  match hl:t.dev.cache.elems,hcount with
  | a::b::rest,_=>
   have hd:=h.wf.distinct
   rw[hl] at hd hall
   have hf:=(pairwise_cons.1 hd).1 b (by simp)
   rw[blockOps_equal.2 ((hall a (by simp)).trans (hall b (by simp)).symm)] at hf
   cases hf
 have hcc:=cached_self h.wf hc
 have:=lru.2 c.sector (by rw[hcc];rfl) hne
 have:=h.past c.sector c hcc
 omega

/-- A full cache drops its least recently used sector exactly when time stamps
and the order of the table do not favour another; then it never drops what the
call before has accessed. -/
theorem evicts_lru_iff {t₀ t:Traced}{u:Device}{ops:List Op}{op:Op}{s:ℕ}
 (empty:t₀.dev.cache=hashInit)(mono:Monotone t₀.dev.clock)
 (run:Runs Traced.next Traced.OnMiss t₀ ops t)(fills:op.FillsSector s)
 (miss:t.dev.cached s=none)(full:64≤hashSize t.dev.cache)
 (step:next t.dev op=some u):
 ∃v,(∀w,Dropped t.dev u w ↔ w=v) ∧ (IsLru t v ↔ Untied t) ∧
  (Untied t → ∀w,t.last w+1=t.now → ¬Dropped t.dev u w):=by
 have h:Timed t:=run.invariant (fun _ _ _ h miss step=>h.next miss step) (timed_of_empty empty mono)
 obtain ⟨v,hv,dropped⟩:=dropped_iff h.toInv fills miss full step
 refine ⟨v.sector,dropped,h.candidate_lru_iff hv,fun untied w recent hw=>?_⟩
 have lru:=(h.candidate_lru_iff hv).2 untied
 rw[←(dropped w).1 hw] at lru
 exact h.recent_not_lru (by omega) recent lru

def blankTrace (clock:ℕ→ℕ):Traced:=⟨blankDevice clock,fun _=>0,0⟩

theorem evicts_lru_ticking:∃ops t u,
 Runs Traced.next Traced.OnMiss (blankTrace id) ops t ∧ next t.dev (.fill 64)=some u ∧
 ∃v,(∀w,Dropped t.dev u w ↔ w=v) ∧ (IsLru t v ↔ Untied t):=by
 have found:(exec Traced.next Traced.OnMiss (blankTrace id) ((List.range 64).map .fill)).any
   (fun t=>(t.dev.cached 64).isNone && decide (64≤hashSize t.dev.cache) &&
    (next t.dev (.fill 64)).isSome)=true:=by
  decide +kernel
 obtain ⟨t,run,ht⟩:=exec_any found
 simp only[Bool.and_eq_true,isNone_iff_eq_none,decide_eq_true_eq] at ht
 obtain ⟨⟨miss,full⟩,ret⟩:=ht
 obtain ⟨u,step⟩:=isSome_iff_exists.1 ret
 obtain ⟨v,dropped,lru,-⟩:=evicts_lru_iff rfl monotone_id run (.inl rfl) miss full step
 exact ⟨_,t,u,run,step,v,dropped,lru⟩

/-- Within one second of the clock the block just looked up is the one evicted. -/
theorem recent_block_evicted:∃ops t u,Runs Traced.next Traced.OnMiss (blankTrace (fun _=>0)) ops t ∧
 next t.dev (.fill 64)=some u ∧ t.last 31+1=t.now ∧ Dropped t.dev u 31 ∧
 ¬IsLru t 31:=by
 have found:(exec Traced.next Traced.OnMiss (blankTrace (fun _=>0))
   ((List.range 64).map .fill++[.get 31])).any (fun t=>
    (next t.dev (.fill 64)).any (fun u=>(u.cached 31).isNone) &&
     decide (t.last 31+1=t.now) && (t.dev.cached 31).isSome &&
     (t.dev.cached 0).isSome && decide (t.last 0<t.last 31))=true:=by
  decide +kernel
 obtain ⟨t,run,ht⟩:=exec_any found
 simp only[Bool.and_eq_true,decide_eq_true_eq] at ht
 obtain ⟨⟨⟨⟨dropped,recent⟩,cached⟩,other⟩,older⟩:=ht
 obtain ⟨u,step,gone⟩:∃u,next t.dev (.fill 64)=some u ∧ (u.cached 31).isNone=true:=by
  cases hn:next t.dev (.fill 64) with
  | none=>simp[hn] at dropped
  | some u=>exact ⟨u,rfl,by simpa[hn] using dropped⟩
 refine ⟨_,t,u,run,step,recent,⟨cached,isNone_iff_eq_none.1 gone⟩,?_⟩
 intro lru
 have:=lru.2 0 other (by decide)
 omega

end Pintos.Cache
