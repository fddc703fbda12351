import GrammarRules.Expr

/-!
# Calendar dates

The bundled example describes the dates of ISO 8601 from 1900 to 2099, written `YYYY-MM-DD`. The
rules come without a root, so that another grammar may choose its own; `rooted` sets `date` as the
root.
-/

namespace GrammarRules.Example.CalendarDate

def year : Expr :=
  .sequence [.oneOf [.literal "19", .literal "20"], .ref "singleDigit", .ref "singleDigit"]

def month : Expr :=
  .oneOf [.sequence [.literal "0", .ref "singleDigit"], .literal "11", .literal "12"]

def day : Expr :=
  .oneOf [
    .sequence [.literal "0", .ref "nonZeroDigit"],
    .sequence [.oneOf [.literal "1", .literal "2"], .ref "singleDigit"],
    .literal "30",
    .literal "31"]

def date : Expr :=
  .sequence [.ref "dateYear", .literal "-", .ref "dateMonth", .literal "-", .ref "dateDay"]

def rules : List Step := [
  .define "singleDigit" (.range "[0-9]"),
  .define "nonZeroDigit" (.range "[1-9]"),
  .define "dateYear" year,
  .define "dateMonth" month,
  .define "dateDay" day,
  .define "date" date]

def rooted : List Step := rules ++ [.root (.ref "date")]

end GrammarRules.Example.CalendarDate
