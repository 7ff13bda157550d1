import Mathlib.Data.List.Basic
import MiniosvCtrl.Infra.Python
import MiniosvCtrl.Runner.Size
import MiniosvCtrl.Runner.Sweep

/-!
# What a driver reads on the console

Every bench has a table of metrics, each a pattern with one group and a conversion; `parse` takes
the first match of each. The lines that all stacks print are in `commonMetrics`, and the gate
that most benches use is `valid`.

* `Metric`, `parse`
* `commonMetrics`
* `intKnob`, `sizeKnob`, `strKnob` — the parsers of the knobs
* `valid` — `Bench.valid`
-/

namespace Runner

open Infra

variable (B : Builtins)

/-- A row: what `row.get(k)` gives. -/
abbrev Record : Type := Name → Scalar B

inductive Cast
  | int | float | str
  /-- `lambda v: v == "true"` -/
  | isTrue
  deriving DecidableEq, Repr

/-- The value of a group; `none` is a `ValueError`. -/
def Cast.apply (c : Cast) (t : List Char) : Option (Scalar B) :=
  match c with
  | .int => (B.int t).map fun n => .int n
  | .float => (B.float t).map .float
  | .str => some (.str (String.ofList t))
  | .isTrue => some (.bool (t = "true".toList))

structure Metric where
  name : Name
  pattern : Regex
  cast : Cast

/-- `a | b`, of two tables. -/
def overlay (a b : List Metric) : List Metric :=
  a.filter (fun m => m.name ∉ b.map Metric.name) ++ b

/-- One field, of the first match. -/
def Metric.read (m : Metric) (text : List Char) : Option (Scalar B) :=
  match m.pattern.group1 text with
  | some t => m.cast.apply B t
  | none => some .none

/-- The fields that were read, as a row. -/
def ofFields (l : List (Name × Scalar B)) : Record B := fun k => (l.lookup k).getD .none

/-- `parse(text, metrics)`; `none`: a figure is no number. -/
def parse (metrics : List Metric) (text : List Char) : Option (Record B) :=
  (metrics.mapM fun m : Metric => (m.read B text).map fun v => (m.name, v)).map (ofFields B)

/-! ## Parts of patterns -/

section Patterns

/-- `\d+` -/
def digits : Regex := .plus B.digit

/-- `[\d.]+` -/
def figure : Regex := .plus B.digitOrPoint

/-- `\w+` -/
def letters : Regex := .plus B.word

/-- `.*` -/
def anything : Regex := .many Regex.dot

/-- `.*?` -/
def little : Regex := .few Regex.dot

/-- `\s*` -/
def blank : Regex := .many isSpace

/-- `\s+` -/
def blanks : Regex := .plus isSpace

/-- `\S+` -/
def solid : Regex := .plus fun c => !isSpace c

/-- `\b` -/
def edge : Regex := .boundary B.word

def hexDigit (c : Char) : Bool := c.isDigit || ('a' ≤ c && c ≤ 'f')

def lower (c : Char) : Bool := 'a' ≤ c && c ≤ 'z'

/-- `Instance running: i-[0-9a-f]+ \(` -/
def running : Regex :=
  .seqs [.text "Instance running: i-", .plus hexDigit, .text " ("]

/-- `^label\s*: .*keyvalue`, with a group for the value. -/
def statistic (label key : String) (value : Regex) : Regex :=
  .seqs [.bol, .text label, blank, .text ": ", anything, .text key, .group value]

end Patterns

def market : Regex :=
  .seqs [running, .few (· != ')'), .group (.alt (.text "spot") (.text "on-demand")), .text ")"]

def zone : Regex :=
  .seqs [running, solid, .text ", ",
    .group (.seqs [.plus lower, .text "-", .plus lower, .text "-", .one B.digit, .one lower]),
    .text ", ", .alt (.text "spot") (.text "on-demand"), .text ")"]

/-- `COMMON_METRICS` -/
def commonMetrics : List Metric :=
  [⟨"tls_stub", .seqs [.bol, .text "bench:", anything, .text "tls_stub=", .group (letters B)],
      .isTrue⟩,
    ⟨"scheme", .seqs [.bol, .text "bench:", anything, .text "scheme=", .group (letters B)], .str⟩,
    ⟨"gbps", .seqs [.text "AGGREGATE:", little, .text ", ", .group (figure B), .text " Gbps"],
      .float⟩,
    ⟨"transfer_gbps",
      .seqs [.text "TRANSFER:", little, .text ", ", .group (figure B), .text " Gbps"], .float⟩,
    ⟨"cpu_s", .seqs [.text "CPU: ", anything, edge B, .text "cpu_s=", .group (figure B)], .float⟩,
    ⟨"cpus_active",
      .seqs [.text "CPU: ", anything, edge B, .alt (.text "cores_over_50pct") (.text "workers"),
        .text "=", .group (digits B)], .int⟩,
    ⟨"gbps_per_cpu_s",
      .seqs [.text "CPU: ", anything, edge B, .text "gbps_per_cpu_s=", .group (figure B)], .float⟩,
    ⟨"mb_per_s", .seqs [.text "AGGREGATE:", little, .text "=> ", .group (figure B), .text " MB/s"],
      .float⟩,
    ⟨"elapsed_s",
      .seqs [.text "AGGREGATE: ", figure B, .text " MiB in ", .group (figure B), .text " s"],
      .float⟩,
    ⟨"conns_clean",
      .seqs [.bol, .text "connections", blanks, .text ": ", .group (digits B), .text "/"], .int⟩,
    ⟨"conns_total",
      .seqs [.bol, .text "connections", blanks, .text ": ", digits B, .text "/",
        .group (digits B)], .int⟩,
    ⟨"misrouted", .seqs [.bol, .text "misrouted rx", blanks, .text ": ", .group (digits B)], .int⟩,
    ⟨"setup_conns",
      .seqs [.bol, .text "SETUP STATS", blank, .text ": conns=", .group (digits B)], .int⟩,
    ⟨"setup_failed", statistic "SETUP STATS" "failed=" (digits B), .int⟩,
    ⟨"setup_us_avg", statistic "SETUP STATS" "us_avg=" (digits B), .int⟩,
    ⟨"setup_us_p50", statistic "SETUP STATS" "us_p50=" (digits B), .int⟩,
    ⟨"setup_us_p90", statistic "SETUP STATS" "us_p90=" (digits B), .int⟩,
    ⟨"setup_us_max", statistic "SETUP STATS" "us_max=" (digits B), .int⟩,
    ⟨"dial_n", .seqs [.bol, .text "DIAL STATS", blank, .text ": dials=", .group (digits B)], .int⟩,
    ⟨"dial_us_avg", statistic "DIAL STATS" "us_avg=" (digits B), .int⟩,
    ⟨"dial_us_p50", statistic "DIAL STATS" "us_p50=" (digits B), .int⟩,
    ⟨"dial_us_p90", statistic "DIAL STATS" "us_p90=" (digits B), .int⟩,
    ⟨"dial_us_max", statistic "DIAL STATS" "us_max=" (digits B), .int⟩,
    ⟨"dial_loop_ms", statistic "DIAL STATS" "loop_ms=" (figure B), .float⟩,
    ⟨"gbps_transfer",
      .seqs [.text "TRANSFER:", little, .text ", ", .group (figure B), .text " Gbps"], .float⟩,
    ⟨"setup_wall_s",
      .seqs [.text "TRANSFER:", little, .text "(setup ", .group (figure B), .text " s excluded)"],
      .float⟩,
    ⟨"bytes", .seqs [.text "(", .group (digits B), .text " bytes)"], .int⟩,
    ⟨"target_ip", .seqs [.bol, .text "target: ", .group (figure B), .text ":", digits B], .str⟩,
    ⟨"target_port", .seqs [.bol, .text "target: ", figure B, .text ":", .group (digits B)], .int⟩,
    ⟨"market", market, .str⟩,
    ⟨"zone", zone B, .str⟩]

/-! ## Knobs -/

/-- The parser `int`: blanks around the digits, a sign and single underscores are allowed. -/
def intKnob (t : String) : Option Value :=
  let l := (strip t).toList
  let body := if l.head? = some '-' ∨ l.head? = some '+' then l.drop 1 else l
  let parts := body.splitOn '_'
  if parts.any (· = []) then none
  else
    (B.int parts.flatten).map fun n => .int (if l.head? = some '-' then -(n : Int) else n)

/-- The parser `size`. -/
def sizeKnob (t : String) : Option Value := (size B t).map fun n => .int n

/-- The parser `str`. -/
def strKnob (t : String) : Option Value := some (.str t)

/-! ## The shared gate -/

variable {B}

/-- `v < n`, of an int. -/
def lt (v : Scalar B) (n : Int) : Bool :=
  match v with
  | .int m => decide (m < n)
  | .bool b => decide ((if b then 1 else 0 : Int) < n)
  | _ => false

/-- `(setup_us_p50 or setup_us_max or 0) < 1_000_000` -/
def setupOk (row : Record B) : Bool :=
  lt (((row "setup_us_p50").or (row "setup_us_max")).or (.int 0)) 1000000

/-- `Bench.valid` -/
def valid (row : Record B) : Bool :=
  (row "complete").truthy && setupOk row && row "misrouted" == .int 0 &&
    (row "http_bad").or (.int 0) == .int 0 && row "conns_total" == row "conns_clean"

end Runner
