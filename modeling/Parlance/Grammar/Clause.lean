import Parlance.Pattern

/-! Words that name the table, and the clauses that order, group and limit a result. -/

namespace Parlance.Grammar

open Pattern

/-- A number right after the table, with or without a sign that it is an id. -/
def idShorthand : Pattern :=
  seq [start, gap,
    optional (oneOf [both (char '#') maybeGap, both (word "number") gap,
      seq [word "no", optional (char '.'), maybeGap], both (word "id") gap]),
    optional (char '#'), group 1 digits, edge]

def tablePreposition : Pattern :=
  seq [edge, phrases ["from", "into", "in", "of"], gap, lead ["the", "all", "my"], group 1 name]

def nameWord : Pattern := seq [edge, name, edge]

def groupBy : Pattern :=
  seq [edge, group 1 (phrases ["grouped by", "group by", "broken down by", "per", "by"]), gap,
    lead ["the", "each"], group 2 name]

def orderBy : Pattern :=
  seq [edge, oneOf [both (word "order") (optional (word "ed")), both (word "sort") (optional (word "ed"))],
    gap, word "by", gap, lead ["the"], group 1 name,
    optional (both gap (group 2 (phrases ["asc", "ascending", "desc", "descending"]))), edge]

def limit : Pattern :=
  seq [edge, oneOf [both (word "limit") (optional (both gap (word "to"))), word "top", word "first"],
    gap, group 1 digits, edge]

def latest : Pattern :=
  seq [edge, phrases ["latest", "newest", "most recent", "last"], gap, group 1 digits, edge]

end Parlance.Grammar
