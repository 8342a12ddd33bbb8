namespace ScreenScript.CommandLine

def exampleLines : List String := [
    "Example script: log in and open the inbox",
    "",
    "Templates are PNG files under ./templates named by id (login_button.png).",
    "An optional login_button.json next to it may set \"threshold\" (0..1] and a",
    "search \"region\" \x7bx, y, width, height\x7d in screenshot pixels.",
    "",
    "    # title: Log in",
    "    # description: Opens the app's login form and signs in.",
    "",
    "    open \"Mail\"",
    "",
    "    var user = \"guest\"            # default, overridden by --var or persisted values",
    "    var logins = 0",
    "",
    "    click login_button timeout=15s",
    "    click username_field",
    "    type \"$\x7buser\x7d\"",
    "    press tab",
    "    type \"$\x7bpassword\x7d\"",
    "    press enter",
    "",
    "    if found mfa_prompt timeout=3s \x7b",
    "        log \"waiting for MFA approval\"",
    "        wait 20s",
    "    \x7d else \x7b",
    "        log \"no MFA prompt\"",
    "    \x7d",
    "",
    "    repeat 3 \x7b",
    "        scroll down 5",
    "    \x7d",
    "    try \x7b                         # misses inside only warn",
    "        click cookie_banner_close timeout=2s",
    "        click whats_new_dismiss timeout=2s",
    "    \x7d",
    "    click inbox best_effort=true  # a miss only warns",
    "    logins = logins + 1",
    "",
    "Try it without touching the desktop:",
    "",
    "    sightline check login.sl",
    "    sightline run login.sl --screen shot.png --logical 1440x900 --var password=hunter2",
    "",
    "Keep a counter across runs:",
    "",
    "    sightline vars set logins 0",
    "    sightline run login.sl --persist",
    "    sightline vars get logins"]

def exampleText : String :=
  String.join (exampleLines.map (· ++ "\n"))

end ScreenScript.CommandLine
