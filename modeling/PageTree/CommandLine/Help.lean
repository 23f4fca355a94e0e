import PageTree.Text

/-!
# Help

What is printed when help or the version is asked for. The text of an option starts in
the column after its name, or in the next line when the name is long.
-/

set_option autoImplicit false

namespace PageTree.CommandLine

/-- The lines of the help. -/
def helpLines : List String :=
  [
    "usage: tree2conf [-h] [--version] [--api-url API_URL] [-d DOMAIN] [-p PATH]",
    "                 [-u USERNAME] [-a API_KEY]",
    "                 [--headers KEY=VALUE [KEY=VALUE ...]]",
    "                 [-l \x7bdebug,info,warning,error,critical\x7d]",
    "                 metadata",
    "",
    "positional arguments:",
    "  metadata              Path to the JSON or YAML metadata file that describes",
    "                        the page tree.",
    "",
    "options:",
    "  -h, --help            show this help message and exit",
    "  --version             show program's version number and exit",
    "  --api-url API_URL     Confluence REST API endpoint (e.g.",
    "                        'https://example.atlassian.net/wiki/rest/api').",
    "  -d DOMAIN, --domain DOMAIN",
    "                        Confluence organization domain, used when no API URL",
    "                        is given.",
    "  -p PATH, --path PATH  Base path for Confluence (default: '/wiki/').",
    "  -u USERNAME, --username USERNAME",
    "                        Confluence user name.",
    "  -a API_KEY, --api-key API_KEY",
    "                        Confluence API key or password. Requests are not",
    "                        authenticated unless both user name and API key are",
    "                        set.",
    "  --headers KEY=VALUE [KEY=VALUE ...]",
    "                        Apply custom headers to all Confluence API requests.",
    "  -l \x7bdebug,info,warning,error,critical\x7d, --loglevel \x7bdebug,info,warning,error,critical\x7d",
    "                        Use this option to set the log verbosity."
  ]

/-- Lines, each with its end. -/
def ofLines (lines : List String) : Text := lines.flatMap fun line => text line ++ text "\n"

/-- The help. -/
def helpText : Text := ofLines helpLines

/-- The version. -/
def versionText : Text := text "0.1.0\n"

end PageTree.CommandLine
