namespace Isam

inductive DatePart
  | month
  | day
  | fullYear
  | shortYear
  | slash
  deriving DecidableEq, Repr

namespace DatePart

def width : DatePart → Nat
  | .month => 2
  | .day => 2
  | .fullYear => 4
  | .shortYear => 2
  | .slash => 1

def pattern : DatePart → String
  | .month => "mm"
  | .day => "dd"
  | .fullYear => "ccyy"
  | .shortYear => "yy"
  | .slash => "/"

end DatePart

inductive DateFormat
  | mdcy
  | mdy
  | dmcy
  | dmy
  | cymd
  | ymd
  deriving DecidableEq, Repr

namespace DateFormat

def all : List DateFormat := [.mdcy, .mdy, .dmcy, .dmy, .cymd, .ymd]

def layout : DateFormat → List DatePart
  | .mdcy => [.month, .slash, .day, .slash, .fullYear]
  | .mdy => [.month, .slash, .day, .slash, .shortYear]
  | .dmcy => [.day, .slash, .month, .slash, .fullYear]
  | .dmy => [.day, .slash, .month, .slash, .shortYear]
  | .cymd => [.fullYear, .month, .day]
  | .ymd => [.shortYear, .month, .day]

def pattern (f : DateFormat) : String := String.join (f.layout.map DatePart.pattern)

def name : DateFormat → String
  | .mdcy => "Mdcy"
  | .mdy => "Mdy"
  | .dmcy => "Dmcy"
  | .dmy => "Dmy"
  | .cymd => "Cymd"
  | .ymd => "Ymd"

def ofName? (s : String) : Option DateFormat := all.find? (·.name == s)

end DateFormat
end Isam
