import Mathlib.Algebra.Group.Nat.Defs
import Mathlib.Tactic.Common

/-!
# Formatted output

`__vprintf` of `lib/stdio.c` with the conversions it knows. What it does is to pass characters to
its `output` argument one after another, so a function stands here for the characters it passes.
Memory is a byte at every address; a loop that runs along a string gets a number of turns.
-/
namespace Pintos.Printf
open List

def byte (c:Char):UInt8:=UInt8.ofNat c.toNat
def text (s:String):List UInt8:=s.toList.map byte

/-- The 32-bit words from which `va_arg` takes the arguments. -/
structure Args where
 words:ℕ→UInt32
 pos:ℕ

def signed (w n:ℕ):ℤ:=(BitVec.ofNat w n).toInt

/-- An `int`, with the overflow of a 32-bit machine. -/
def wrap (z:ℤ):ℤ:=(BitVec.ofInt 32 z).toInt

def Args.word (args:Args):ℕ×Args:=((args.words args.pos).toNat,{args with pos:=args.pos+1})
def Args.int (args:Args):ℤ×Args:=(signed 32 args.word.1,args.word.2)
def Args.long (args:Args):ℕ×Args:=
 let (low,args):=args.word
 let (high,args):=args.word
 (low+4294967296*high,args)

structure Flags where
 minus:Bool
 plus:Bool
 space:Bool
 pound:Bool
 zero:Bool
 group:Bool
 deriving DecidableEq,Repr

inductive Size where
 | char
 | short
 | int
 | intmax
 | long
 | longlong
 | ptrdifft
 | sizet
 deriving DecidableEq,Repr

/-- `struct printf_conversion`. -/
structure Conversion where
 flags:Flags
 width:ℤ
 precision:ℤ
 type:Size
 deriving DecidableEq,Repr

/-- `struct integer_base`; a base of at least 2 makes the digits end. -/
structure Base where
 base:ℕ
 digits:List UInt8
 x:UInt8
 group:ℕ
 two_le:2≤base

def baseD:Base:=⟨10,text "0123456789",0,3,by decide⟩
def baseO:Base:=⟨8,text "01234567",0,3,by decide⟩
def basex:Base:=⟨16,text "0123456789abcdef",byte 'x',4,by decide⟩
def baseX:Base:=⟨16,text "0123456789ABCDEF",byte 'X',4,by decide⟩

/-- The digits that `format_integer` puts into its buffer, the last digit first. -/
def digitLoop (b:Base)(group:Bool)(value cnt:ℕ):List UInt8:=
 if value=0 then []
 else
  (if group ∧ 0<cnt ∧ cnt%b.group=0 then [byte ','] else []) ++
   b.digits.getD (value%b.base) 0::digitLoop b group (value/b.base) (cnt+1)
 termination_by value
 decreasing_by exact Nat.div_lt_self (Nat.pos_of_ne_zero ‹_›) b.two_le

/-- The buffer of `format_integer`, which has room for 64 characters. -/
def integerBuf (value:ℕ)(b:Base)(c:Conversion):List UInt8:=
 let buf:=digitLoop b c.flags.group value 0
 let precision:=if c.precision<0 then 1 else c.precision.toNat
 let buf:=buf++replicate (min precision 63-buf.length) (byte '0')
 if c.flags.pound ∧ b.base=8 ∧ buf.getLast?≠some (byte '0') then buf++[byte '0'] else buf

def integerSign (isSigned negative:Bool)(flags:Flags):List UInt8:=
 if isSigned then
  if flags.plus then [if negative then byte '-' else byte '+']
  else if flags.space then [if negative then byte '-' else byte ' ']
  else if negative then [byte '-']
  else []
 else []

def formatInteger (value:ℕ)(isSigned negative:Bool)(b:Base)(c:Conversion):List UInt8:=
 let sign:=integerSign isSigned negative c.flags
 let x:=if c.flags.pound ∧ value≠0 ∧ b.x≠0 then [byte '0',b.x] else []
 let buf:=integerBuf value b c
 let pad:=(wrap (c.width-buf.length-x.length-sign.length)).toNat
 (if c.flags.minus ∨ c.flags.zero then [] else replicate pad (byte ' '))++sign++x ++
  (if c.flags.zero then replicate pad (byte '0') else []) ++
  buf.reverse ++
  (if c.flags.minus then replicate pad (byte ' ') else [])

def formatString (string:ℕ→UInt8)(length:ℤ)(c:Conversion):List UInt8:=
 let pad:=(c.width-length).toNat
 (if c.flags.minus then [] else replicate pad (byte ' '))++(List.range length.toNat).map string ++
  (if c.flags.minus then replicate pad (byte ' ') else [])
variable (mem:ℕ→UInt8)

def isdigit (c:UInt8):Bool:=byte '0' ≤ c && c≤byte '9'

def Flags.set (flags:Flags)(c:UInt8):Option Flags:=
 if c=byte '-' then some {flags with minus:=true}
 else if c=byte '+' then some {flags with plus:=true}
 else if c=byte ' ' then some {flags with space:=true}
 else if c=byte '#' then some {flags with pound:=true}
 else if c=byte '0' then some {flags with zero:=true}
 else if c=byte '\'' then some {flags with group:=true}
 else none

def parseFlags:ℕ→ℕ→Flags→Option (Flags×ℕ)
 | 0,_,_=>none
 | turns+1,format,flags=>
  match flags.set (mem format) with
  | some flags=>parseFlags turns (format+1) flags
  | none=>some (flags,format)

def parseDigits:ℕ→ℕ→ℤ→Option (ℤ×ℕ)
 | 0,_,_=>none
 | turns+1,format,n=>
  if isdigit (mem format) then
   parseDigits turns (format+1) (wrap (n*10+(mem format).toNat-(byte '0').toNat))
  else some (n,format)

/-- A number or a star, for which the number is an argument. -/
def parseNumber (turns format:ℕ)(args:Args):Option (ℤ×ℕ×Args):=
 if mem format=byte '*' then some (args.int.1,format+1,args.int.2)
 else do
  let (n,format)←parseDigits mem turns format 0
  return (n,format,args)

def parsePrecision (turns format:ℕ)(args:Args):Option (ℤ×ℕ×Args):=
 if mem format=byte '.' then do
  let (n,format,args)←parseNumber mem turns (format+1) args
  return (if n<0 then -1 else n,format,args)
 else some (-1,format,args)

def parseSize (format:ℕ):Size×ℕ:=
 if mem format=byte 'h' then
  if mem (format+1)=byte 'h' then (.char,format+2) else (.short,format+1)
 else if mem format=byte 'j' then (.intmax,format+1)
 else if mem format=byte 'l' then
  if mem (format+1)=byte 'l' then (.longlong,format+2) else (.long,format+1)
 else if mem format=byte 't' then (.ptrdifft,format+1)
 else if mem format=byte 'z' then (.sizet,format+1)
 else (.int,format)

def noFlags:Flags:=⟨false,false,false,false,false,false⟩

def parseConversion (turns format:ℕ)(args:Args):Option (Conversion×ℕ×Args):=do
 let (flags,format)←parseFlags mem turns format noFlags
 let flags:={flags with zero:=flags.zero && !flags.minus}
 let flags:={flags with space:=flags.space && !flags.plus}
 let (width,format,args)←parseNumber mem turns format args
 let (width,flags):=if width<0 then (wrap (-width),{flags with minus:=true})
  else (width,flags)
 let (precision,format,args)←parsePrecision mem turns format args
 let flags:=if 0≤precision then {flags with zero:=false} else flags
 let (type,format):=parseSize mem format
 return (⟨flags,width,precision,type⟩,format,args)

def signedArg (type:Size)(args:Args):ℤ×Args:=
 match type with
 | .char=>(signed 8 args.word.1,args.word.2)
 | .short=>(signed 16 args.word.1,args.word.2)
 | .intmax | .longlong=>(signed 64 args.long.1,args.long.2)
 | .int | .long | .ptrdifft | .sizet=>args.int

def unsignedArg (type:Size)(args:Args):ℕ×Args:=
 match type with
 | .char=>(args.word.1%256,args.word.2)
 | .short=>(args.word.1%65536,args.word.2)
 | .intmax | .longlong=>args.long
 | .int | .long | .ptrdifft | .sizet=>args.word

def strnlen (string:ℕ):ℕ→ℕ
 | 0=>0
 | maxlen+1=>if mem string=0 then 0 else strnlen (string+1) maxlen+1

/-- The message that stands for a conversion that is not supported. -/
def refusal (c:UInt8)(rest:String):List UInt8:=text "<<no %" ++ [c]++text rest

def convert (kind:UInt8)(c:Conversion)(args:Args):List UInt8×Args:=
 if kind=byte 'd' ∨ kind=byte 'i' then
  let (value,args):=signedArg c.type args
  (formatInteger value.natAbs true (decide (value<0)) baseD c,args)
 else if kind=byte 'o' ∨ kind=byte 'u' ∨ kind=byte 'x' ∨ kind=byte 'X' then
  let (value,args):=unsignedArg c.type args
  let b:=if kind=byte 'o' then baseO else if kind=byte 'u' then baseD
   else if kind=byte 'x' then basex else baseX
  (formatInteger value false false b c,args)
 else if kind=byte 'c' then
  (formatString (fun _=>UInt8.ofNat args.word.1) 1 c,args.word.2)
 else if kind=byte 's' then
  let (s,args):=args.word
  -- no precision is the greatest number of characters
  let maxlen:=if c.precision<0 then 4294967295 else c.precision.toNat
  if s=0 then
   let null:=text "(null)"
   (formatString (fun i=>null.getD i 0) (min null.length maxlen:ℕ) c,args)
  else (formatString (fun i=>mem (s+i)) (signed 32 (strnlen mem s maxlen)) c,args)
 else if kind=byte 'p' then
  let (p,args):=args.word
  (formatInteger p false false basex {c with flags:={noFlags with pound:=true}},args)
 else if kind=byte 'f' ∨ kind=byte 'e' ∨ kind=byte 'E' ∨ kind=byte 'g' ∨
   kind=byte 'G' ∨ kind=byte 'n' then (refusal kind " in kernel>>",args)
 else (refusal kind " conversion>>",args)

/-- The characters that `__vprintf` passes to `output`. -/
def vprintfChars:ℕ→ℕ→Args→Option (List UInt8)
 | 0,_,_=>none
 | turns+1,format,args=>
  if mem format=0 then some []
  else if mem format≠byte '%' then do
   let rest←vprintfChars turns (format+1) args
   return mem format::rest
  else if mem (format+1)=byte '%' then do
   let rest←vprintfChars turns (format+2) args
   return byte '%' :: rest
  else do
   let (c,format,args)←parseConversion mem turns (format+1) args
   let (chars,args):=convert mem (mem format) c args
   let rest←vprintfChars turns (format+1) args
   return chars++rest

end Pintos.Printf
