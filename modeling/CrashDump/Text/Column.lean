/-!
# Columns

Text filled up with blanks to the width of a column.
-/
namespace CrashDump.Text

/-- Blanks that are missing from a text of the given width. -/
def missing (width : Nat) (text : String) : String :=
  String.ofList (List.replicate (width - text.length) ' ')

def right (width : Nat) (text : String) : String := missing width text ++ text

def left (width : Nat) (text : String) : String := text ++ missing width text

end CrashDump.Text
