import Duende.Formats.Plist
import Duende.Names

/-!
# The property list of a launchd job of the core

`generate_plist` of the core's adapter and what is read from the text it generates.
`job_parses_iff` says for which daemons that is what was put in.
-/

namespace Duende.Core.Launchd

open Plist (Item)

def generatePlist (label daemonName program : Text) : Text :=
  List.flatten [
    "<?xml version=\"1.0\" encoding=\"UTF-8\"?>\n".toList,
    "<!DOCTYPE plist PUBLIC \"-//Apple//DTD PLIST 1.0//EN\" ".toList,
    "\"http://www.apple.com/DTDs/PropertyList-1.0.dtd\">\n".toList,
    "<plist version=\"1.0\">\n".toList,
    "<dict>\n".toList,
    "    <key>Label</key>\n".toList,
    "    <string>".toList ++ label ++ "</string>\n".toList,
    "    <key>ProgramArguments</key>\n".toList,
    "    <array>\n".toList,
    "        <string>".toList ++ program ++ "</string>\n".toList,
    "    </array>\n".toList,
    "    <key>RunAtLoad</key>\n".toList,
    "    <true/>\n".toList,
    "    <key>KeepAlive</key>\n".toList,
    "    <dict>\n".toList,
    "        <key>SuccessfulExit</key>\n".toList,
    "        <false/>\n".toList,
    "    </dict>\n".toList,
    "    <key>ThrottleInterval</key>\n".toList,
    "    <integer>5</integer>\n".toList,
    "    <key>StandardOutPath</key>\n".toList,
    "    <string>".toList ++ ("/tmp/duende-".toList ++ daemonName ++ ".out.log".toList) ++
      "</string>\n".toList,
    "    <key>StandardErrorPath</key>\n".toList,
    "    <string>".toList ++ ("/tmp/duende-".toList ++ daemonName ++ ".err.log".toList) ++
      "</string>\n".toList,
    "</dict>\n".toList,
    "</plist>\n".toList]

/-- The parts of the property list, with how far each is indented. -/
def parts (label daemonName program : Text) : List (Nat × Item Text) :=
  let key (n : Nat) (k : String) : Nat × Item Text := (n, .key k.toList)
  [(0, .dictStart), key 4 "Label", (4, .string label), key 4 "ProgramArguments", (4, .arrayStart),
    (8, .string program), (4, .arrayStop), key 4 "RunAtLoad", (4, .bool true), key 4 "KeepAlive",
    (4, .dictStart), key 8 "SuccessfulExit", (8, .bool false), (4, .dictStop),
    key 4 "ThrottleInterval", (4, .integer 5), key 4 "StandardOutPath",
    (4, .string ("/tmp/duende-".toList ++ daemonName ++ ".out.log".toList)),
    key 4 "StandardErrorPath",
    (4, .string ("/tmp/duende-".toList ++ daemonName ++ ".err.log".toList)), (0, .dictStop)]

variable {label daemonName program : Text}

theorem generatePlist_eq :
    generatePlist label daemonName program = Plist.document (parts label daemonName program) := by
  have htype : "<!DOCTYPE plist PUBLIC \"-//Apple//DTD PLIST 1.0//EN\" ".toList ++
      "\"http://www.apple.com/DTDs/PropertyList-1.0.dtd\">\n".toList =
      '<' :: (Plist.doctype ++ ['\n']) := by decide
  have hdecl : "<?xml version=\"1.0\" encoding=\"UTF-8\"?>\n".toList =
      Plist.declaration ++ ['\n'] := rfl
  have hroot : "<plist version=\"1.0\">\n".toList =
      Plist.bracket "plist version=\"1.0\"".toList ++ ['\n'] := rfl
  have hend : "</plist>\n".toList = Plist.bracket ('/' :: Plist.Element.plist.name) ++ ['\n'] :=
    rfl
  have hfour : ∀ t : Text, "    <string>".toList ++ t ++ "</string>\n".toList =
      Plist.line (4, .string t) := Platforms.MacOS.string_line_four
  have height : ∀ t : Text, "        <string>".toList ++ t ++ "</string>\n".toList =
      Plist.line (8, .string t) := Platforms.MacOS.string_line_eight
  unfold generatePlist Plist.document Plist.body parts
  simp only [hfour, height, hdecl, hroot, hend, List.flatten_cons, List.flatten_nil,
    List.flatMap_cons, List.flatMap_nil, List.append_nil]
  rw [← List.append_assoc "<!DOCTYPE plist PUBLIC \"-//Apple//DTD PLIST 1.0//EN\" ".toList, htype]
  simp only [List.append_assoc, List.cons_append, List.nil_append]
  rfl

theorem moves_parts : Plist.moves ((parts label daemonName program).map Prod.snd) (.root, []) =
    some (.closing, []) := rfl

theorem parts_literal (hlabel : Xml.Literal label) (hprogram : Xml.Literal program) :
    (∀ l ∈ parts label daemonName program, ∀ t ∈ l.2.texts, Xml.Literal t) ↔
      Xml.Literal daemonName := by
  have hkeys : ∀ k ∈ ["Label", "ProgramArguments", "RunAtLoad", "KeepAlive", "SuccessfulExit",
      "ThrottleInterval", "StandardOutPath", "StandardErrorPath"].map String.toList,
      Xml.Literal k := by
    intro k hk
    refine Platforms.MacOS.literal_of_tame (Platforms.MacOS.tame_of_all ?_)
    revert k
    decide
  have hout : Xml.Literal ("/tmp/duende-".toList ++ daemonName ++ ".out.log".toList) ↔
      Xml.Literal daemonName := Xml.literal_between (by decide) (by decide)
  have herr : Xml.Literal ("/tmp/duende-".toList ++ daemonName ++ ".err.log".toList) ↔
      Xml.Literal daemonName := Xml.literal_between (by decide) (by decide)
  simp only [List.map_cons, List.map_nil, List.forall_mem_cons, List.not_mem_nil,
    false_imp_iff, implies_true, and_true] at hkeys
  simp only [parts, List.forall_mem_cons, Item.texts, List.not_mem_nil, false_imp_iff,
    implies_true, and_true, true_and, hkeys, hlabel, hprogram, hout, herr, and_self]

theorem literal_serviceLabel (h : Xml.Literal daemonName) :
    Xml.Literal (serviceLabel daemonName) := by
  have hreplace : ∀ {a : Char} {t : Text}, Xml.Literal t → Xml.Literal (replaceChar a '-' t) := by
    intro a t ht
    refine ht.map fun c _ => ?_
    split
    · exact .inr (by decide)
    · exact .inl rfl
  have hlabel : Xml.Literal ("com.duende.".toList ++ replaceChar '_' '-'
      (replaceChar ' ' '-' daemonName) ++ []) :=
    (Xml.literal_between (by decide) rfl).2 (hreplace (hreplace h))
  rwa [List.append_nil] at hlabel

/-- **The property list of a job** is read back exactly when the name of the daemon is literal. -/
theorem job_parses_iff (hlabel : Xml.Literal label) (hprogram : Xml.Literal program) :
    Plist.parse (generatePlist label daemonName program) =
        some ((parts label daemonName program).map Prod.snd) ↔
      Xml.Literal daemonName := by
  rw [generatePlist_eq, Plist.parse_document_iff moves_parts, parts_literal hlabel hprogram]

end Duende.Core.Launchd
