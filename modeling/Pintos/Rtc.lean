import Mathlib.Algebra.Order.Ring.Int

/-! The clock of `devices/rtc.c`. A register may have another content each time it is read. -/
namespace Pintos.Rtc
open List

def bcdToBin (x:UInt8):ℤ:=((x &&& 0x0f).toNat+(x >>> 4).toNat*10:ℕ)

inductive Register where
 | sec
 | min
 | hour
 | mday
 | mon
 | year
 deriving DecidableEq,Repr

structure Clock where
 sec:ℤ
 min:ℤ
 hour:ℤ
 mday:ℤ
 mon:ℤ
 year:ℤ

/-- The loop that reads the clock until the second is the same before and after; `cmos` gives the
content of a register at the time of each turn, and `again` that of the last read. -/
def readClock (cmos again:ℕ→Register→UInt8):ℕ→ℕ→Option Clock
 | 0,_=>none
 | turns+1,now=>
  let sec:=bcdToBin (cmos now .sec)
  let min:=bcdToBin (cmos now .min)
  let hour:=bcdToBin (cmos now .hour)
  let mday:=bcdToBin (cmos now .mday)
  let mon:=bcdToBin (cmos now .mon)
  let year:=bcdToBin (cmos now .year)
  if sec≠bcdToBin (again now .sec) then readClock cmos again turns (now+1)
  else some ⟨sec,min,hour,mday,mon,year⟩

def daysPerMonth:List ℤ:=[31,28,31,30,31,30,31,31,30,31,30,31]

def rtcGetTime (cmos again:ℕ→Register→UInt8)(turns:ℕ):Option UInt32:=do
 let c←readClock cmos again turns 0
 let year:=if c.year<70 then c.year+100 else c.year
 let year:=year-70
 let time:=UInt32.ofInt ((year*365+(year-1).tdiv 4)*24*60*60)
 let time:=(List.range c.mon.toNat).foldl
  (fun time i=>time+UInt32.ofInt (daysPerMonth.getD i 0*24*60*60)) time
 let time:=if 2<c.mon ∧ year.tmod 4=0 then time+24*60*60 else time
 let time:=time+UInt32.ofInt ((c.mday-1)*24*60*60)
 let time:=time+UInt32.ofInt (c.hour*60*60)
 let time:=time+UInt32.ofInt (c.min*60)
 return time+UInt32.ofInt c.sec

def leap (year:ℕ):Bool:=year%4 == 0 && (year%100 != 0 || year%400 == 0)
def daysIn (year mon:ℕ):ℕ:=
 if mon=2 ∧ leap year then 29 else (daysPerMonth.getD (mon-1) 0).toNat

/-- A date and time of the Gregorian calendar, from 1970 to 2037. -/
structure Date where
 year:ℕ
 mon:ℕ
 mday:ℕ
 hour:ℕ
 min:ℕ
 sec:ℕ
 valid:(1970≤year ∧ year≤2037) ∧ (1 ≤ mon ∧ mon≤12) ∧
  (1 ≤ mday ∧ mday≤daysIn year mon) ∧ hour<24 ∧ min<60 ∧ sec<60

def Date.dayNumber (d:Date):ℕ:=
 ((List.range (d.year-1970)).map fun k=>365+(leap (1970+k)).toNat).sum +
  ((List.range (d.mon-1)).map fun k=>daysIn d.year (k+1)).sum+(d.mday-1)

/-- The seconds since the beginning of 1970. -/
def Date.unixTime (d:Date):ℕ:=d.dayNumber*86400+d.hour*3600+d.min*60+d.sec

def bcd (n:ℕ):UInt8:=UInt8.ofNat (n/10*16+n%10)

def Date.registers (d:Date):Register→UInt8
 | .sec=>bcd d.sec
 | .min=>bcd d.min
 | .hour=>bcd d.hour
 | .mday=>bcd d.mday
 | .mon=>bcd d.mon
 | .year=>bcd (d.year%100)

/-- The days that are added too much: all of the current month, and what the two counts of leap
days make. -/
def Date.slip (d:Date):ℤ:=
 let y:ℤ:=d.year-1970
 daysPerMonth.getD (d.mon-1) 0+((y-1).tdiv 4-(y+1)/4) +
  if 2<d.mon then (if y%4=0 then 1 else 0)-(if y%4=2 then 1 else 0) else 0

lemma bcdToBin_bcd:∀n<100,bcdToBin (bcd n)=n:=by
 decide

variable (d:Date)

lemma Date.years:1970≤d.year ∧ d.year≤2037:=d.valid.1
lemma Date.months:1≤d.mon ∧ d.mon≤12:=d.valid.2.1
lemma Date.days:1≤d.mday ∧ d.mday≤daysIn d.year d.mon:=d.valid.2.2.1
lemma Date.clock:d.hour<24 ∧ d.min<60 ∧ d.sec<60:=d.valid.2.2.2

lemma leapDays {y:ℕ}(early:y≤68):
 ((List.range y).map fun k=>365+(leap (1970+k)).toNat).sum=365*y+(y+1)/4:=by
 induction y with
 | zero=>rfl
 | succ y ih=>
  rw[range_succ,map_append,sum_append,ih (by omega)]
  have this:(leap (1970+y)).toNat=if (y+2)%4=0 then 1 else 0:=by
   have:leap (1970+y)=decide ((y+2)%4=0):=by
    rw[leap,Bool.eq_iff_iff]
    simp
    omega
   split<;>simp_all
  simp[this]
  split<;>omega

lemma monthDays:∀mon≤12,1 ≤ mon → ∀b:Bool,
 ((List.range mon).map fun k=>daysPerMonth.getD k 0*24*60*60).sum=
  86400*((((List.range (mon-1)).map fun k=>
    if k+1=2 ∧ b=true then 29 else (daysPerMonth.getD (k+1-1) 0).toNat).sum:ℤ) +
    daysPerMonth.getD (mon-1) 0-if 2 < mon ∧ b=true then 1 else 0):=by
 decide

lemma foldl_ofInt (f:ℕ→ℤ)(l:List ℕ)(z:ℤ):
 l.foldl (fun time i=>time+UInt32.ofInt (f i)) (UInt32.ofInt z)=UInt32.ofInt (z+(l.map f).sum):=by
 induction l generalizing z with
 | nil=>simp
 | cons i l ih=>rw[foldl_cons,←UInt32.ofInt_add,ih,map_cons,sum_cons,Int.add_assoc]

lemma Date.daysIn_le:daysIn d.year d.mon≤31:=by
 have months:=d.months
 have each:∀k<12,(daysPerMonth.getD k 0).toNat≤31:=by decide
 unfold daysIn
 split
 · decide
 · exact each _ (by omega)

lemma readClock_stable (turns:ℕ):readClock (fun _=>d.registers) (fun _=>d.registers) (turns+1) 0=
  some ⟨d.sec,d.min,d.hour,d.mday,d.mon,(d.year%100:ℕ)⟩:=by
 have days:=d.days.2.trans d.daysIn_le
 have clock:=d.clock
 have months:=d.months
 rw[readClock]
 simp only[ne_eq,not_true_eq_false,if_false,Date.registers]
 rw[bcdToBin_bcd _ (by omega),bcdToBin_bcd _ (by omega),bcdToBin_bcd _ (by omega),
  bcdToBin_bcd _ (by omega),bcdToBin_bcd _ (by omega),bcdToBin_bcd _ (by omega)]

lemma rtcGetTime_eq (turns:ℕ):rtcGetTime (fun _=>d.registers) (fun _=>d.registers) (turns+1)=
  some (UInt32.ofInt (d.unixTime+86400*d.slip)):=by
 have years:=d.years
 have year:(if ((d.year%100:ℕ):ℤ)<70 then ((d.year%100:ℕ):ℤ)+100
   else (d.year%100:ℕ))-70=(d.year:ℤ)-1970:=by
  split<;>omega
 have flag:(24*60*60:UInt32)=UInt32.ofInt 86400:=rfl
 have sum:=monthDays d.mon d.months.2 d.months.1 (leap d.year)
 have leaps:=leapDays (y:=d.year-1970) (by omega)
 have isLeap:leap d.year=true ↔ ((d.year:ℤ)-1970)%4=2:=by
  rw[leap]
  simp
  omega
 simp only[rtcGetTime,readClock_stable,Option.bind_eq_bind,Option.bind_some,year,
  foldl_ofInt,Int.toNat_natCast,flag,←UInt32.ofInt_add]
 rw[←apply_ite UInt32.ofInt]
 simp only[←UInt32.ofInt_add]
 refine congrArg (fun z=>some (UInt32.ofInt z)) ?_
 have mod:((d.year:ℤ)-1970).tmod 4=((d.year:ℤ)-1970)%4:=Int.tmod_eq_emod_of_nonneg (by omega)
 have days:=d.days.1
 rw[sum,mod]
 simp only[Date.unixTime,Date.dayNumber,Date.slip,daysIn]
 simp only[isLeap]
 split_ifs<;>omega

lemma Date.slip_bounds:26≤d.slip ∧ d.slip≤32:=by
 have each:∀k<12,28≤daysPerMonth.getD k 0 ∧ daysPerMonth.getD k 0≤31:=by decide
 have years:=d.years
 have months:=d.months
 obtain ⟨low,high⟩:=each (d.mon-1) (by omega)
 obtain ⟨y,hy⟩:∃y:ℤ,y=(d.year:ℤ)-1970:=⟨_,rfl⟩
 have early:(y-1).tdiv 4=if y=0 then 0 else (y-1)/4:=by
  split
  · rename_i zero
    rw[zero]
    rfl
  · exact Int.tdiv_eq_ediv_of_nonneg (by omega)
 simp only[Date.slip,←hy]
 split_ifs<;>omega

lemma Date.unixTime_lt:d.unixTime<25000*86400:=by
 have sums:∀mon≤12,∀b:Bool,((List.range (mon-1)).map fun k=>
   if k+1=2 ∧ b=true then 29 else (daysPerMonth.getD (k+1-1) 0).toNat).sum≤335:=by
  decide
 have before:=sums d.mon d.months.2 (leap d.year)
 have years:=d.years
 have leaps:=leapDays (y:=d.year-1970) (by omega)
 have days:=d.days.2.trans d.daysIn_le
 have clock:=d.clock
 simp only[Date.unixTime,Date.dayNumber]
 unfold daysIn
 omega

/-- The clock is `slip` days fast. -/
lemma Date.rtcGetTime_slips (turns:ℕ):
 ∃t,rtcGetTime (fun _=>d.registers) (fun _=>d.registers) (turns+1)=some t ∧
  (t.toNat:ℤ)=d.unixTime+86400*d.slip:=by
 refine ⟨_,rtcGetTime_eq d turns,?_⟩
 have time:=d.unixTime_lt
 have slip:=d.slip_bounds
 have word (z:ℤ):(UInt32.ofInt z).toNat=(z%2^32).toNat%2^32:=rfl
 rw[word]
 omega

/-- What the clock shows is never right, and two dates are in order if they are further apart than
their slips. -/
theorem rtc_get_time_iff (a b:Date)(turns:ℕ):
 ∃s t,rtcGetTime (fun _=>a.registers) (fun _=>a.registers) (turns+1)=some s ∧
  rtcGetTime (fun _=>b.registers) (fun _=>b.registers) (turns+1)=some t ∧
  (s.toNat:ℤ)=a.unixTime+86400*a.slip ∧ s.toNat≠a.unixTime ∧
  (a.unixTime<b.unixTime → (s<t ↔ 86400*(a.slip-b.slip)<(b.unixTime:ℤ)-a.unixTime)):=by
 obtain ⟨s,first,hs⟩:=a.rtcGetTime_slips turns
 obtain ⟨t,second,ht⟩:=b.rtcGetTime_slips turns
 have slip:=a.slip_bounds
 refine ⟨s,t,first,second,hs,?_,fun _=>?_⟩
 · omega
 · rw[UInt32.lt_iff_toNat_lt]
   omega

def lastOfJanuary:Date:=⟨2000,1,31,0,0,0,by decide⟩
def firstOfFebruary:Date:=⟨2000,2,1,0,0,0,by decide⟩
def epoch:Date:=⟨1970,1,1,0,0,0,by decide⟩

theorem rtc_get_time_iff_month:
 ∃s t,rtcGetTime (fun _=>epoch.registers) (fun _=>epoch.registers) 1=some s ∧
  rtcGetTime (fun _=>lastOfJanuary.registers) (fun _=>lastOfJanuary.registers) 1=some t ∧
  s<t:=by
 obtain ⟨s,t,first,second,-,-,order⟩:=rtc_get_time_iff epoch lastOfJanuary 0
 exact ⟨s,t,first,second,(order (by decide)).2 (by decide)⟩

theorem rtc_runs_ahead:
 rtcGetTime (fun _=>epoch.registers) (fun _=>epoch.registers) 1=some 2678400 ∧
  rtcGetTime (fun _=>lastOfJanuary.registers) (fun _=>lastOfJanuary.registers) 1=some 951955200 ∧
  rtcGetTime (fun _=>firstOfFebruary.registers) (fun _=>firstOfFebruary.registers) 1=
   some 951782400 ∧
  epoch.unixTime=0 ∧ lastOfJanuary.unixTime<firstOfFebruary.unixTime:=by
 decide

end Pintos.Rtc
