import Isam.Calendar.Date
import Isam.Text.Printable
namespace Isam

def centuryPivot : Int := 50

def expandYear (yy : Int) : Int := if yy < centuryPivot then 2000 + yy else 1900 + yy

namespace DatePart

def write (c : Civil) : DatePart → List Char
  | .month => Text.padded 2 c.month
  | .day => Text.padded 2 c.day
  | .fullYear => Text.padded 4 c.year
  | .shortYear => Text.padded 2 (c.year % 100)
  | .slash => ['/']

def read (c : Civil) (cs : List Char) : DatePart → Option Civil
  | .slash => if cs = ['/'] then some c else none
  | p =>
    if cs.all Text.isDigit then
      let n := Text.ofDigits cs
      match p with
      | .month => some { c with month := n }
      | .day => some { c with day := n }
      | .fullYear => some { c with year := n }
      | _ => some { c with year := expandYear n }
    else none

end DatePart

namespace DateFormat

def write (f : DateFormat) (c : Civil) : List Char := f.layout.flatMap (·.write c)

def readParts : List DatePart → Civil → List Char → Option Civil
  | [], c, cs => if cs.isEmpty then some c else none
  | p :: ps, c, cs =>
    if cs.length < p.width then none
    else (p.read c (cs.take p.width)).bind fun c => readParts ps c (cs.drop p.width)

def read (f : DateFormat) (cs : List Char) : Option Civil := readParts f.layout ⟨0, 0, 0⟩ cs

end DateFormat

namespace Date

def format (d : Date) (f : DateFormat) : String := String.ofList (f.write d.civil)

def parse (text : String) (f : DateFormat) : Except Error Date :=
  match f.read (Text.trim text.toList) with
  | some c => ofCivil c.year c.month c.day
  | none => .error (.dateText text f)

end Date
end Isam
