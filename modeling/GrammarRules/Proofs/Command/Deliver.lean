import GrammarRules.Command.Run
import GrammarRules.Proofs.Console.Wrapped
import GrammarRules.Proofs.Session.Course
import GrammarRules.Proofs.Session.Exec

/-!
# Putting out the grammar of a target

A target that is a grammar, or makes one, leads to a session, and the grammar of that session is
built and put out. What the session has printed and reported so far stands in front.
-/

namespace GrammarRules.Command

/-- How the grammar of a member comes about, and the session that holds it. -/
def Member.follow? : Member → Option (Except Error Unit × Session)
  | .grammar g => some (.ok (), { grammar := g })
  | .factory r => some r.follow
  | .other _ => none
  | .demanding _ => none

def reported (verbose : Bool) (events : List Event) : String :=
  String.join (events.filterMap (eventLine? verbose))

def shown (columns : Nat) (verbose : Bool) (s : Session) : Output :=
  { stdout := Console.wrapped columns s.printed, stderr := reported verbose s.events }

def Output.append (o o' : Output) : Output :=
  ⟨o.stdout ++ o'.stdout, o.stderr ++ o'.stderr, o.files ++ o'.files⟩

instance : Append Output := ⟨Output.append⟩

theorem Output.append_empty (o : Output) : o ++ ({} : Output) = o := by
  change Output.mk (o.stdout ++ "") (o.stderr ++ "") (o.files ++ []) = o
  rw [String.append_empty, String.append_empty, List.append_nil]

theorem Output.empty_append (o : Output) : ({} : Output) ++ o = o := by
  change Output.mk ("" ++ o.stdout) ("" ++ o.stderr) ([] ++ o.files) = o
  rw [String.empty_append, String.empty_append, List.nil_append]

variable {columns : Nat} {modules : List Module} {verbose : Bool} {target : String} {d : Delivery}
  {m : Member} {o : Output} {s : Session} {text : String}

theorem drain_eq : drain columns verbose o s = (o ++ shown columns verbose s, s.cleared) := by
  change (Output.mk _ _ o.files, s.cleared) = (Output.mk _ _ (o.files ++ []), s.cleared)
  rw [List.append_nil]
  rfl

theorem shown_cleared : shown columns verbose s.cleared = {} := by
  rw [shown, Session.cleared, Console.wrapped_empty]
  rfl

/-- What a session has shown once its grammar is built: what stood there, and what building adds. -/
def shownBuilt (columns : Nat) (verbose : Bool) (s : Session) (mode : Mode) (text : String) :
    Output :=
  shown columns verbose s ++ shown columns verbose (s.cleared.built mode text)

/-- Without verbosity, building a grammar that does not print itself adds nothing. -/
theorem shownBuilt_quiet (hdebug : s.grammar.options.debug = false) (mode : Mode) :
    shownBuilt columns false s mode text = shown columns false s := by
  have hadded : shown columns false (s.cleared.built mode text) =
      shown columns false s.cleared := by
    simp only [shown, Session.built, Session.cleared, hdebug, Bool.false_eq_true, if_false,
      String.append_empty]
    rfl
  rw [shownBuilt, hadded, shown_cleared, Output.append_empty]

theorem run_build (s : Session) (mode? : Option Mode) :
    (Session.build (some (mode?.getD s.grammar.options.mode))).run.run s =
      match s.grammar.build mode? with
      | .error e => (.error e, s)
      | .ok text => (.ok text, s.built (mode?.getD s.grammar.options.mode) text) :=
  s.exec_build (some (mode?.getD s.grammar.options.mode))

/-- An error of the grammar while it is built is reported. -/
theorem deliver_of_build_error {e : GrammarError}
    (h : s.grammar.build d.mode = .error (.grammar e)) :
    deliver columns verbose d o s = (.exit 1, (o ++ shown columns verbose s).report
      (Console.wrapped columns (Console.printError e.message))) := by
  simp only [deliver, run_build, h, drain_eq]

theorem deliver_printed (h : s.grammar.build d.mode = .ok text) (houtput : d.output = none) :
    deliver columns verbose d o s =
      (.exit 0, (o ++ shown columns verbose
        (s.built (d.mode.getD s.grammar.options.mode) text)).print
          (if d.debug then Console.wrapped columns
            (Console.printStyled (Highlight.text (d.mode.getD s.grammar.options.mode) text))
          else Console.echo text)) := by
  simp only [deliver, run_build, h, houtput, drain_eq]
  cases d.debug <;> rfl

theorem deliver_written {path : String} (h : s.grammar.build d.mode = .ok text)
    (houtput : d.output = some path) (hpath : isWritable (plainPath path)) :
    deliver columns verbose d o s =
      (.exit 0, ((o ++ shown columns verbose
        (s.built (d.mode.getD s.grammar.options.mode) text)).write
          (plainPath path) (text ++ "\n")).print
            (Console.wrapped columns (Console.print ("Wrote grammar to " ++ plainPath path)))) := by
  have hdevice : plainPath path ≠ nullDevice := by
    intro heq
    rw [heq] at hpath
    exact absurd hpath (by decide)
  simp only [deliver, run_build, h, houtput, drain_eq, if_neg hdevice, if_pos hpath]

variable {followed : Except Error Unit × Session}

theorem any_null_eq_false (hpath : ∀ path ∈ d.output, '\x00' ∉ path.toList) :
    (d.output.any fun path => path.toList.contains '\x00') = false := by
  cases houtput : d.output with
  | none => rfl
  | some path => simpa using hpath path houtput

/-- The grammar of a target is put out if it has come about. -/
theorem deliverTarget_eq (hpath : ∀ path ∈ d.output, '\x00' ∉ path.toList)
    (hm : Target.resolve modules target = .ok m) (hfollow : m.follow? = some followed) :
    deliverTarget columns modules verbose target d =
      match followed.1 with
      | .error e => (.failed (.error e), shown columns verbose followed.2)
      | .ok _ =>
          deliver columns verbose d (shown columns verbose followed.2) followed.2.cleared := by
  unfold deliverTarget
  rw [any_null_eq_false hpath, if_neg Bool.false_ne_true, hm]
  cases m with
  | grammar g =>
    cases hfollow
    change deliver columns verbose d {} ({ grammar := g } : Session).cleared = _
    rw [← @shown_cleared columns verbose { grammar := g }]
    rfl
  | factory r =>
    obtain ⟨result, s⟩ := followed
    have hrecipe : r.follow = (result, s) := Option.some.inj hfollow
    cases result <;> simp only [deliverRecipe, hrecipe, drain_eq, Output.empty_append]
  | other kind => cases hfollow
  | demanding complaint => cases hfollow

theorem run_eq (columns : Nat) {arguments : List String}
    (hrequest : Request.ofArguments arguments = .ok (.build verbose target d))
    (hpath : ∀ path ∈ d.output, '\x00' ∉ path.toList)
    (hm : Target.resolve (modules ++ bundled) target = .ok m)
    (hfollow : m.follow? = some followed) :
    run modules arguments columns =
      match followed.1 with
      | .error e => (.failed (.error e), shown columns verbose followed.2)
      | .ok _ =>
          deliver columns verbose d (shown columns verbose followed.2) followed.2.cleared := by
  rw [run, hrequest]
  exact deliverTarget_eq hpath hm hfollow

/-- A grammar that has come about and is built is put out on the standard output, highlighted if
that is asked for. -/
theorem run_printed (columns : Nat) {arguments : List String}
    (hrequest : Request.ofArguments arguments = .ok (.build verbose target d))
    (houtput : d.output = none) (hm : Target.resolve (modules ++ bundled) target = .ok m)
    (hs : m.follow? = some (.ok (), s)) (hbuild : s.grammar.build d.mode = .ok text) :
    run modules arguments columns =
      (.exit 0, (shownBuilt columns verbose s (d.mode.getD s.grammar.options.mode) text).print
        (if d.debug then Console.wrapped columns
          (Console.printStyled (Highlight.text (d.mode.getD s.grammar.options.mode) text))
        else Console.echo text)) := by
  have hrun := run_eq columns hrequest (by simp [houtput]) hm hs
  exact hrun.trans (deliver_printed hbuild houtput)

/-- Or it is written to a file. -/
theorem run_written (columns : Nat) {arguments : List String} {path : String}
    (hrequest : Request.ofArguments arguments = .ok (.build verbose target d))
    (houtput : d.output = some path) (hnull : '\x00' ∉ path.toList)
    (hpath : isWritable (plainPath path)) (hm : Target.resolve (modules ++ bundled) target = .ok m)
    (hs : m.follow? = some (.ok (), s)) (hbuild : s.grammar.build d.mode = .ok text) :
    run modules arguments columns =
      (.exit 0, ((shownBuilt columns verbose s (d.mode.getD s.grammar.options.mode) text).write
        (plainPath path) (text ++ "\n")).print
          (Console.wrapped columns (Console.print ("Wrote grammar to " ++ plainPath path)))) := by
  have hrun := run_eq columns hrequest (by simpa [houtput] using hnull) hm hs
  exact hrun.trans (deliver_written hbuild houtput hpath)

theorem wrapped_printError_eq_iff (columns : Nat) (message : String) :
    Console.wrapped columns (Console.printError message) = "Error: " ++ message ++ "\n" ↔
      (∀ c ∈ message.toList, Console.isAltered c = false) ∧
        Console.Fits columns ("Error: " ++ message) := by
  have hlabel : ("Error: ".toList.all fun c => Console.isAltered c = false) = true := by decide
  rw [Console.printError, Console.wrapped_print_eq_iff, String.toList_append,
    List.forall_mem_append]
  exact and_congr_left fun _ =>
    and_iff_right fun c hc => of_decide_eq_true (List.all_eq_true.mp hlabel c hc)

theorem inked_wrapped_printError {message : String} (hcolumns : 2 ≤ columns)
    (hplain : Text.Plain message.toList) :
    Text.inked (Console.wrapped columns (Console.printError message)).toList =
      Text.inked (Styled.visible ("Error: " ++ message).toList) := by
  have hlabel : Text.Plain "Error: ".toList := by
    simp [Text.Plain]
  refine Console.inked_wrapped_print hcolumns ?_
  rw [String.toList_append]
  exact Text.plain_append.mpr ⟨hlabel, hplain⟩

/-- An error of the grammar that arises while the grammar is built is reported, with exit code 1 and
nothing put out of the grammar: as it is if its message holds no tab and no control character and
the console is wide enough for it. If not, it is wrapped, which loses nothing but blanks and control
characters. An error that arises while the grammar is made ends the command unhandled. -/
theorem grammar_error_reported_iff_built (columns : Nat) (modules : List Module)
    (arguments : List String) (verbose : Bool) (target : String) (d : Delivery) (m : Member)
    (result : Except Error Unit) (s : Session) (e : GrammarError)
    (hrequest : Request.ofArguments arguments = .ok (.build verbose target d))
    (hpath : ∀ path ∈ d.output, '\x00' ∉ path.toList)
    (hm : Target.resolve (modules ++ bundled) target = .ok m)
    (hs : m.follow? = some (result, s))
    (harises : result = .error (.grammar e) ∨
      result = .ok () ∧ s.grammar.build d.mode = .error (.grammar e)) :
    (result = .ok () →
      run modules arguments columns = (.exit 1,
        { stdout := Console.wrapped columns s.printed,
          stderr := reported verbose s.events ++
            Console.wrapped columns (Console.printError e.message) }) ∧
      (2 ≤ columns → Text.Plain e.message.toList →
        Text.inked (Console.wrapped columns (Console.printError e.message)).toList =
          Text.inked (Styled.visible ("Error: " ++ e.message).toList))) ∧
    (result ≠ .ok () → run modules arguments columns = (.failed (.error (.grammar e)),
      { stdout := Console.wrapped columns s.printed, stderr := reported verbose s.events })) ∧
    (run modules arguments columns = (.exit 1,
        { stdout := Console.wrapped columns s.printed,
          stderr := reported verbose s.events ++ ("Error: " ++ e.message ++ "\n") }) ↔
      result = .ok () ∧ (∀ c ∈ e.message.toList, Console.isAltered c = false) ∧
        Console.Fits columns ("Error: " ++ e.message)) := by
  have hrun := run_eq columns hrequest hpath hm hs
  rcases harises with rfl | ⟨rfl, hbuild⟩
  · refine ⟨fun h => (nomatch h), fun _ => hrun, ?_⟩
    simp [hrun]
  · have hreported : run modules arguments columns = (.exit 1,
        { stdout := Console.wrapped columns s.printed,
          stderr := reported verbose s.events ++
            Console.wrapped columns (Console.printError e.message) }) := by
      have hdeliver := @deliver_of_build_error columns verbose d (shown columns verbose s) s.cleared
        e hbuild
      rw [shown_cleared, Output.append_empty] at hdeliver
      exact hrun.trans hdeliver
    refine ⟨fun _ => ⟨hreported, inked_wrapped_printError⟩, fun h => absurd rfl h, ?_⟩
    rw [hreported, ← wrapped_printError_eq_iff]
    simp

def troubled : Module where
  name := "troubled"
  members := [("rootless", .grammar {}),
    ("make", .factory { steps := [.define Name.root (.literal "x")] })]

theorem rootless_reported :
    run [troubled] ["-v", "build", "troubled:rootless", "--mode=ebnf", "-o", "out"]
        Console.usualColumns =
      (.exit 1, { stderr := "Error: No root rule defined\n" }) := by
  have hrequest : Request.ofArguments
      ["-v", "build", "troubled:rootless", "--mode=ebnf", "-o", "out"] =
        .ok (.build true "troubled:rootless" { mode := some .ebnf, output := some "out" }) := rfl
  have hm : Target.resolve ([troubled] ++ bundled) "troubled:rootless" = .ok (.grammar {}) := rfl
  have hbuild : ({} : Grammar).build (some .ebnf) = .error (.grammar { fault := .noRoot }) := rfl
  have h := grammar_error_reported_iff_built Console.usualColumns [troubled] _ true _ _
    (.grammar {}) (.ok ()) {} _ hrequest (by simp) hm rfl (Or.inr ⟨rfl, hbuild⟩)
  have hmessage : "No root rule defined".toList.all fun c => Console.isAltered c = false := by
    decide
  have hfits : Console.Fits Console.usualColumns ("Error: " ++ "No root rule defined") := by
    decide +kernel
  exact h.2.2.mpr
    ⟨rfl, fun c hc => of_decide_eq_true (List.all_eq_true.mp hmessage c hc), hfits⟩

theorem error_of_factory_not_reported :
    run [troubled] ["build", "troubled:make"] = (.failed (.error (.grammar
      { fault := .reservedName, context := some ⟨Name.root, .gbnf⟩ })), {}) := by
  have hrequest : Request.ofArguments ["build", "troubled:make"] =
      .ok (.build false "troubled:make" {}) := rfl
  have hm : Target.resolve ([troubled] ++ bundled) "troubled:make" =
      .ok (.factory { steps := [.define Name.root (.literal "x")] }) := rfl
  have hfollow : ({ steps := [.define Name.root (.literal "x")] } : Recipe).follow =
      (.error (.grammar { fault := .reservedName, context := some ⟨Name.root, .gbnf⟩ }), {}) := by
    cbv
  rw [run_eq _ hrequest (by simp) hm (congrArg some hfollow)]
  rfl

end GrammarRules.Command
