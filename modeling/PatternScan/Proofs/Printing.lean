import PatternScan.Report.Record
import PatternScan.Search.Reference

/-!
# Printing with room for everything

Devices without a limit take all they are given (`Device.writeAll_unlimited`), so a printer on such
devices never fails, and prints the records and the warnings of the events it is told
(`Printer.deliver_unlimited`).
-/

namespace PatternScan

namespace Device

theorem text_taken (d : Device) (pieces : List (List Char)) :
    ({ d with taken := pieces.reverse ++ d.taken } : Device).text = d.text ++ pieces.flatten := by
  simp [text]

theorem write_unlimited {d : Device} (h : d.room = .unlimited) (piece : List Char) :
    d.write piece = ({ d with taken := piece :: d.taken }, .ok ()) := by
  simp only [write, h]

theorem writeAll_unlimited : ∀ (pieces : List (List Char)) {d : Device}, d.room = .unlimited →
    d.writeAll pieces = ({ d with taken := pieces.reverse ++ d.taken }, .ok ())
  | [], _, _ => rfl
  | piece :: rest, d, h => by
    have ih := writeAll_unlimited rest (d := { d with taken := piece :: d.taken }) h
    rw [writeAll, write_unlimited h]
    simp only [ih, List.reverse_cons, List.append_assoc, List.singleton_append]

theorem writeAll_append (d : Device) (pieces pieces' : List (List Char)) :
    d.writeAll (pieces ++ pieces') =
      match d.writeAll pieces with
      | (d, .ok ()) => d.writeAll pieces'
      | (d, .error reason) => (d, .error reason) := by
  fun_induction writeAll d pieces with
  | case1 => rfl
  | case2 d piece rest d' hwrite ih =>
    rw [List.cons_append, writeAll, hwrite]
    exact ih
  | case3 d piece rest d' reason hwrite =>
    rw [List.cons_append, writeAll, hwrite]

end Device

theorem flatten_pieces (style : PrintStyle) (events : List SearchEvent) :
    (events.flatMap (·.pieces style)).flatten = records style events := by
  rw [records, List.flatMap, List.flatten_flatten, List.map_map]
  refine congrArg List.flatten (List.map_congr_left fun event _ => ?_)
  cases event <;> rfl

namespace Printer

/-- What comes of the output does not depend on the diagnostics. -/
theorem deliver_out : ∀ (events : List SearchEvent) (p : Printer),
    ((sink.deliver p events).1.out, (sink.deliver p events).2) =
      p.out.writeAll (events.flatMap (·.pieces p.style))
  | [], _ => rfl
  | .skipped line e :: events, p => deliver_out events (p.printSkipped line e)
  | .matched m :: events, p => by
    have hsink : sink.matched p m = p.printMatch m := rfl
    rw [List.flatMap_cons, Device.writeAll_append, Sink.deliver, hsink, printMatch]
    rw [show SearchEvent.pieces p.style (.matched m) = m.pieces p.style from rfl]
    rcases p.out.writeAll (m.pieces p.style) with ⟨out, reason | _⟩
    · rfl
    · exact deliver_out events { p with out }

/-- Both devices take any text. -/
def Unlimited (p : Printer) : Prop :=
  p.out.room = .unlimited ∧ p.diagnostics.room = .unlimited

/-- The printer has printed the records and the warnings of these events on its devices. -/
structure Prints (p : Printer) (events : List SearchEvent) (p' : Printer) : Prop where
  unlimited : p'.Unlimited
  style_eq : p'.style = p.style
  flushFails_eq : p'.out.flushFails = p.out.flushFails
  out_eq : p'.out.text = p.out.text ++ records p.style events
  diagnostics_eq : p'.diagnostics.text = p.diagnostics.text ++ warnings events

variable {p p' p'' : Printer} {events events' : List SearchEvent}

theorem prints_nil (h : p.Unlimited) : p.Prints [] p :=
  ⟨h, rfl, rfl, by simp [records], by simp [warnings]⟩

theorem Prints.append (h : p.Prints events p') (h' : p'.Prints events' p'') :
    p.Prints (events ++ events') p'' where
  unlimited := h'.unlimited
  style_eq := h'.style_eq.trans h.style_eq
  flushFails_eq := h'.flushFails_eq.trans h.flushFails_eq
  out_eq := by simp [h'.out_eq, h.out_eq, h.style_eq, records]
  diagnostics_eq := by simp [h'.diagnostics_eq, h.diagnostics_eq, warnings]

theorem Prints.finish (h : p.Prints events p') (hflush : p.out.flushFails = false) :
    p'.finish = .ok () := by
  rw [Printer.finish, Device.flush, h.flushFails_eq, hflush]
  rfl

theorem prints_matched (h : p.Unlimited) (m : LineMatch) :
    (p.printMatch m).2 = .ok () ∧ p.Prints [.matched m] (p.printMatch m).1 := by
  unfold printMatch
  rw [Device.writeAll_unlimited _ h.1]
  refine ⟨rfl, h, rfl, rfl, ?_, by simp [warnings, SearchEvent.warning]⟩
  simp [Device.text_taken, records, SearchEvent.record, LineMatch.record]

theorem prints_skipped (h : p.Unlimited) (line : Nat) (e : Utf8.DecodeError) :
    p.Prints [.skipped line e] (p.printSkipped line e) := by
  unfold printSkipped
  rw [Device.write_unlimited h.2]
  refine ⟨h, rfl, rfl, by simp [records, SearchEvent.record], ?_⟩
  simp [Device.text, warnings, SearchEvent.warning]

theorem deliver_unlimited : ∀ (events : List SearchEvent) {p : Printer}, p.Unlimited →
    (sink.deliver p events).2 = .ok () ∧ p.Prints events (sink.deliver p events).1
  | [], _, h => ⟨rfl, prints_nil h⟩
  | .skipped line e :: events, p, h => by
    have hskipped := prints_skipped h line e
    obtain ⟨hok, hprints⟩ := deliver_unlimited events hskipped.unlimited
    exact ⟨hok, hskipped.append hprints⟩
  | .matched m :: events, p, h => by
    obtain ⟨hprinted, hmatched⟩ := prints_matched h m
    obtain ⟨hok, hprints⟩ := deliver_unlimited events hmatched.unlimited
    have hsink : sink.matched p m = ((p.printMatch m).1, .ok ()) := Prod.ext rfl hprinted
    rw [Sink.deliver, hsink]
    exact ⟨hok, hmatched.append hprints⟩

end Printer

end PatternScan
