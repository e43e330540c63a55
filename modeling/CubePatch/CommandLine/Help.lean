/-!
# The help text
-/
namespace CubePatch

def helpLines : List String := [
  "geckoloader: install Gecko codes into a GameCube/Wii DOL",
  "",
  "USAGE:",
  "  geckoloader <dolfile> <codelist> [OPTIONS]",
  "",
  "  <codelist> is a .txt or .gct file, or a folder of them",
  "",
  "OPTIONS:",
  "  -a, --alloc HEX          bytes to reserve for the handler and codes",
  "  -i, --init HEX           address to place the loader at",
  "      --txtcodes MODE      ACTIVE (default) or ALL codes of a text list",
  "      --handler TYPE       FULL (default) or MINI code handler",
  "      --handlerpath PATH   code handler binary, overrides --handler",
  "      --loaderpath PATH    loader binary",
  "      --hooktype TYPE      VI (default), GX or PAD",
  "      --hookaddress HEX    hook this blr instead of searching for one",
  "      --placement MODE     AUTO (default), LEGACY or ARENA",
  "  -o, --optimize           pre-patch static writes into the DOL",
  "  -p, --protect            keep the game from replacing the code handler (ARENA only)",
  "      --encrypt            encrypt the installed code list",
  "      --seed N             seed for the encryption key",
  "      --dest PATH          output file, or folder for the output",
  "  -q, --quiet              print nothing but errors",
  "  -v, --verbose            more output, up to -vvv",
  "  -h, --help               print this message"]

/-- Each line with a line feed at its end. -/
def textOfLines (lines : List String) : String :=
  String.join (lines.map (· ++ "\n"))

def helpText : String :=
  textOfLines helpLines

end CubePatch
